import ProxyMonitor.Files
import ProxyMonitor.Settings.Toml

/-! Settings files: their format goes by the extension. -/

namespace ProxyMonitor

structure SettingsFormat where
  extensions : List String
  read? : String → Option SettingLayer

namespace SettingsFormat

def toml : SettingsFormat := ⟨["toml"], Toml.read?⟩

end SettingsFormat

namespace SettingsFile

/-- Drops slashes, and dots after a slash, from a path that is read from its end. -/
def dropTail : List Char → List Char
  | '/' :: rest => dropTail rest
  | '.' :: '/' :: rest => dropTail rest
  | rest => rest

def upToName (path : String) : List Char := (dropTail path.toList.reverse).reverse

def name (path : String) : List Char := ((upToName path).reverse.takeWhile (· ≠ '/')).reverse

def hasName (path : String) : Bool := String.ofList (name path) ∉ ["", ".", ".."]

/-- What follows the last dot of the name, unless the name begins with that dot. -/
def extension (path : String) : String :=
  let name := (name path).reverse
  match name.dropWhile (· ≠ '.') with
  | [] | ['.'] => ""
  | _ => String.ofList (name.takeWhile (· ≠ '.')).reverse

def withExtension (path extension : String) : String :=
  String.ofList (upToName path ++ '.' :: extension.toList)

/-- The file that a path stands for, and its format: the file of that very path, or else one with
the extension of a format behind it. -/
def find? (formats : List SettingsFormat) (files : Files) (path : String) :
    Option (String × SettingsFormat) :=
  if files.isFile path then
    (formats.find? (·.extensions.contains (extension path))).map fun format => (path, format)
  else if hasName path then
    (formats.flatMap fun format =>
      format.extensions.map fun extension => (withExtension path extension, format)).find?
        fun candidate => files.isFile candidate.1
  else none

def read? (formats : List SettingsFormat) (files : Files) (path : String) :
    Option SettingLayer := do
  let (path, format) ← find? formats files path
  let text ← (files.lossyText path).toOption
  format.read? text

example :
    (["a.b/c.x.toml", "d/.toml", "d/..", "e.ini/."].map extension,
      withExtension "./d//" "toml", hasName "../..") =
      (["toml", "", "", "ini"], "./d.toml", false) := by
  decide

end SettingsFile

end ProxyMonitor
