import StreamConformance.SystemError

/-!
# Trees of files

A script is read from a path, and `FileTree.read` says what is found there: the bytes of a
file, or the reason for which there is nothing to read.

A path is a row of names with slashes between them.  It is walked name by name, from the root
if it begins with a slash and from the working directory otherwise.  An empty name and `.` stay
where they are; `..` goes to the directory around, and the root has none but itself.  Anything
behind a slash, an empty name too, asks for a directory in front of it, so the names behind a
file are not looked at.

Two bounds come before that: a name may take `maxName` bytes, which matters when the walk comes
to it, and a whole path `maxPath` bytes, which matters at once.  A path with the character NUL
in it names nothing at all.
-/

namespace StreamConformance

/-- A file, or a directory with names for what is in it. -/
inductive FileNode where
  | file (content : ByteArray)
  | directory (entries : List (String × FileNode))

/-- What is in a directory. -/
abbrev Directory := List (String × FileNode)

/-- Why nothing can be read from a path. -/
inductive PathFault where
  /-- The path has the character NUL in it. -/
  | nulInName
  | system (e : SystemError)
  deriving DecidableEq

/-- How the reason is told. -/
def PathFault.text : PathFault → String
  | .nulInName => "file name contained an unexpected NUL byte"
  | .system e => e.text

/-- The directories that paths begin in. -/
structure FileTree where
  root : Directory
  /-- The working directory. -/
  working : Directory := root
  /-- The directories around the working directory, from the inside out. -/
  around : List Directory := []

namespace FileTree

/-- The largest number of bytes in a name. -/
def maxName : Nat := 255

/-- The largest number of bytes in a path. -/
def maxPath : Nat := 4095

/-- Follow names from a directory; `around` are the directories around it. -/
def walk : Directory → List Directory → List String → Except SystemError FileNode
  | here, _, [] => .ok (.directory here)
  | here, around, name :: names =>
    if name.isEmpty || name == "." then walk here around names
    else if name == ".." then
      match around with
      | [] => walk here [] names
      | above :: around => walk above around names
    else if maxName < name.utf8ByteSize then .error .nameTooLong
    else
      match here.find? (·.1 == name) with
      | none => .error .noSuchFile
      | some (_, .directory inside) => walk inside (here :: around) names
      | some (_, .file content) =>
        if names.isEmpty then .ok (.file content) else .error .notADirectory

/-- What a path that is neither empty nor too long stands for. -/
def find (t : FileTree) (path : String) : Except SystemError FileNode :=
  let names := (path.toList.splitOn '/').map String.ofList
  if path.startsWith "/" then walk t.root [] names else walk t.working t.around names

/-- Read what is found at a path. -/
def read (t : FileTree) (path : String) : Except PathFault ByteArray :=
  if path.toList.contains '\x00' then .error .nulInName
  else if path.isEmpty then .error (.system .noSuchFile)
  else if maxPath < path.utf8ByteSize then .error (.system .nameTooLong)
  else
    match t.find path with
    | .error e => .error (.system e)
    | .ok (.file content) => .ok content
    | .ok (.directory _) => .error (.system .isADirectory)

end FileTree
end StreamConformance
