import ProxyMonitor.Utf8

namespace ProxyMonitor

/-- Why a file could not be read, in the words of the system; `isFile` says that there is one. -/
structure FileFault where
  isFile : Bool
  text : String
  deriving DecidableEq, Repr

abbrev Files := String → Except FileFault ByteArray

namespace Files

def isFile (files : Files) (path : String) : Bool :=
  match files path with
  | .ok _ => true
  | .error fault => fault.isFile

def text (files : Files) (path : String) : Except FileFault String :=
  files path >>= fun bytes => match String.fromUTF8? bytes with
    | some text => .ok text
    | none => .error ⟨true, "stream did not contain valid UTF-8"⟩

def lossyText (files : Files) (path : String) : Except FileFault String :=
  (files path).map Utf8.lossy

end Files

end ProxyMonitor
