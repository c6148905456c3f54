/-!
# Files

A disk holds text files in folders. A path is walked name by name, and each name must be looked up in
a folder that exists. Reading and creating fail as the operating system words it.
-/

namespace WasmTyping.Command

inductive DiskError where
  | notFound
  | notFolder
  | isFolder
  | nameTooLong
deriving DecidableEq

def DiskError.message : DiskError → String
  | .notFound => "No such file or directory (os error 2)"
  | .notFolder => "Not a directory (os error 20)"
  | .isFolder => "Is a directory (os error 21)"
  | .nameTooLong => "File name too long (os error 36)"

/-- A place on the disk: its name, and before it the names of the folders around it, outermost
first. -/
abbrev Place := List String

def maxNameBytes : Nat := 255

def maxPathBytes : Nat := 4095

structure Disk where
  files : List (Place × String) := []
  folders : List Place := [[]]
  -- Where relative paths start.
  here : Place := []

namespace Disk

def hasFolder (d : Disk) (p : Place) : Bool := d.folders.contains p

def file? (d : Disk) (p : Place) : Option String := d.files.lookup p

/-- Looks up a name in a place that exists. An empty name stands for the place itself. -/
def enter (d : Disk) (place : Place) (name : String) : Except DiskError Place :=
  if ¬ d.hasFolder place then .error .notFolder
  else if name = "" ∨ name = "." then .ok place
  else if name = ".." then .ok place.dropLast
  else if maxNameBytes < name.utf8ByteSize then .error .nameTooLong
  else
    let p := place ++ [name]
    if d.hasFolder p ∨ (d.file? p).isSome then .ok p else .error .notFound

def names (d : Disk) (path : String) : Except DiskError (Place × List String) :=
  if maxPathBytes < path.utf8ByteSize then .error .nameTooLong
  else
    match path.splitOn "/" with
    | "" :: rest => .ok ([], rest)
    | all => .ok (d.here, all)

def walk (d : Disk) (start : Place) (names : List String) : Except DiskError Place :=
  names.foldlM d.enter start

def read (d : Disk) (path : String) : Except DiskError String := do
  let (start, names) ← d.names path
  let p ← d.walk start names
  match d.file? p with
  | some content => return content
  | none => throw .isFolder

/-- Where a file is made or replaced. A slash at the end asks for a folder, which no file is. -/
def creationPlace (d : Disk) (path : String) : Except DiskError Place := do
  let (start, names) ← d.names path
  let kept := (names.reverse.dropWhile (· = "")).reverse
  match kept.getLast? with
  | none => throw .isFolder
  | some name =>
    let folder ← d.walk start kept.dropLast
    if ¬ d.hasFolder folder then throw .notFolder
    if name = "." ∨ name = ".." ∨ kept.length < names.length then throw .isFolder
    if maxNameBytes < name.utf8ByteSize then throw .nameTooLong
    if d.hasFolder (folder ++ [name]) then throw .isFolder
    return folder ++ [name]

def write (d : Disk) (p : Place) (content : String) : Disk :=
  { d with files := (p, content) :: d.files.filter fun f => f.1 != p }

end Disk

end WasmTyping.Command
