import ProxyMonitor.Program

namespace ProxyMonitor

structure Directory where
  files : List (List String × ByteArray)

namespace Directory

def steps (path : String) : List String :=
  (path.splitOn "/").filter fun name => name ≠ "" ∧ name ≠ "."

def file? (directory : Directory) (path : String) : Option ByteArray :=
  if path.endsWith "/" then none else directory.files.lookup (steps path)

def isDirectory (directory : Directory) (names : List String) : Bool :=
  names.isEmpty || directory.files.any fun file => names.isPrefixOf file.1 && names != file.1

def read (directory : Directory) : Files := fun path =>
  match directory.file? path with
  | some bytes => .ok bytes
  | none =>
    if path ≠ "" ∧ directory.isDirectory (steps path) then
      .error ⟨false, "Is a directory (os error 21)"⟩
    else .error ⟨false, "No such file or directory (os error 2)"⟩

/-- Puts a file in place, unless its directory is missing or it is one itself. -/
def write? (directory : Directory) (path : String) (content : ByteArray) : Option Directory :=
  let names := steps path
  if path.startsWith "/" || path.endsWith "/" || directory.isDirectory names ||
    !directory.isDirectory names.dropLast then none
  else some ⟨directory.files.filter (·.1 ≠ names) ++ [(names, content)]⟩

def append? (directory : Directory) (path text : String) : Option Directory :=
  directory.write? path ((directory.file? path).getD .empty ++ text.toUTF8)

end Directory

structure Remains where
  exitCode : Nat
  output : String
  directory : Directory

namespace Outcome

def remains (outcome : Outcome) (directory : Directory) : Remains :=
  match outcome with
  | help => ⟨0, CommandLine.helpText, directory⟩
  | wrongArguments => ⟨2, "", directory⟩
  | failed => ⟨1, "", directory⟩
  | exported path data =>
    match directory.write? path data.text.toUTF8 with
    | some directory => ⟨0, Program.exportedText path, directory⟩
    | none => ⟨1, "", directory⟩
  | screen start =>
    ⟨1, "", (start.log.bind fun log => directory.append? log.path log.text).getD directory⟩

end Outcome

end ProxyMonitor
