import BraceScript.Text.Search

/-!
# Files

What a path leads to, and why it may lead to no text.

A path is walked step by step from the directory in which the program runs, or from the root. Empty
steps and `.` stay in a directory, `..` goes up, and every other step is a name, which must be
there. From a file no step can be taken, not even an empty one, so a slash after the name of a file
is a fault of its own. Only the files of the tree are known: the directories above it are there,
and nothing else in them is.
-/

namespace BraceScript

/-- Why a file cannot be read as text. -/
inductive FileFault where
  | missing
  | denied
  | notDirectory
  | directory
  | nameTooLong
  | notText
deriving DecidableEq, Repr, Inhabited

/-- The wording of a file's fault. -/
def FileFault.text : FileFault → String
  | missing => "No such file or directory (os error 2)"
  | denied => "Permission denied (os error 13)"
  | notDirectory => "Not a directory (os error 20)"
  | directory => "Is a directory (os error 21)"
  | nameTooLong => "File name too long (os error 36)"
  | notText => "stream did not contain valid UTF-8"

/-- The text that a file holds, which must be UTF-8 as a whole. -/
def fileText (bytes : ByteArray) : Except FileFault String :=
  match String.fromUTF8? bytes with
  | some s => .ok s
  | none => .error .notText

/-- The files below a directory, each with the names that lead to it. -/
structure FileTree where
  files : List (List String × ByteArray) := []
deriving Inhabited

namespace FileTree

/-- Where a walk stands. -/
inductive Spot where
  | file (bytes : ByteArray)
  /-- The directory of the tree to which the names lead. -/
  | below (names : List String)
  /-- A directory above the tree. -/
  | above

/-- The longest name, in bytes. -/
def longestName : Nat := 255

/-- The longest path, in bytes. -/
def longestPath : Nat := 4095

/-- The tree of files that are given by their paths, with slashes between the names. -/
def ofPaths (files : List (String × ByteArray)) : FileTree where
  files := files.map fun (path, bytes) => (Text.splitOn path "/", bytes)

/-- What some names lead to: a file, or a directory that has a file below it. -/
def find? (t : FileTree) (names : List String) : Option Spot :=
  match t.files.lookup names with
  | some bytes => some (.file bytes)
  | none =>
    if t.files.any fun (path, _) => names.isPrefixOf path then some (.below names) else none

/-- What a name in a directory leads to. -/
def child (t : FileTree) (name : String) : Spot → Except FileFault Spot
  | .file _ => .error .notDirectory
  | .above => .error (if longestName < name.utf8ByteSize then .nameTooLong else .missing)
  | .below names =>
    if longestName < name.utf8ByteSize then .error .nameTooLong
    else
      match t.find? (names ++ [name]) with
      | some spot => .ok spot
      | none => .error .missing

/-- The directory above a directory. -/
def parent : Spot → Except FileFault Spot
  | .file _ => .error .notDirectory
  | .above | .below [] => .ok .above
  | .below names => .ok (.below names.dropLast)

/-- A directory itself. -/
def stay : Spot → Except FileFault Spot
  | .file _ => .error .notDirectory
  | spot => .ok spot

/-- One step of a walk. -/
def step (t : FileTree) (spot : Spot) (name : String) : Except FileFault Spot :=
  if name = "" || name = "." then stay spot
  else if name = ".." then parent spot
  else t.child name spot

/-- A walk along some steps. -/
def walk (t : FileTree) : Spot → List String → Except FileFault Spot
  | spot, [] => .ok spot
  | spot, name :: names => (t.step spot name).bind fun next => t.walk next names

/-- Where a path starts. -/
def start (path : String) : Spot :=
  if ['/'].isPrefixOf path.toList then .above else .below []

/-- The bytes of the file to which a path leads. -/
def read (t : FileTree) (path : String) : Except FileFault ByteArray :=
  if path = "" then .error .missing
  else if longestPath < path.utf8ByteSize then .error .nameTooLong
  else
    match t.walk (start path) (Text.splitOn path "/") with
    | .ok (.file bytes) => .ok bytes
    | .ok _ => .error .directory
    | .error fault => .error fault

end FileTree
end BraceScript
