/-
**File trees.**

A file tree holds files by their paths from a working directory; a directory is there if a file lies
under it. Around the working directory stands a system of which little is known: the directories
above the working directory, the root with its customary directories, and the null device. Nothing
else is found there, and what is written there is not part of the tree.

A path is walked one name at a time, so each of them but the last has to be a directory:

* `.` and an empty name stay, `..` goes up, and the root is above itself;
* a path that starts with a slash starts at the root, any other at the working directory;
* a path that ends with a slash names a directory, and a file cannot be made by such a path.

`FileTree.host` lets a command run on a tree.
-/

import PicaShader.Command.Host

namespace PicaShader

/-- Files by the names on their paths. -/
structure FileTree where
  files : List (List Text × Text) := []
deriving DecidableEq, Repr

/-- Where a path can start or lead to. -/
inductive FileBase where
  /-- The working directory. -/
  | working
  /-- A directory above the working directory. -/
  | above
  /-- The root of the system. -/
  | root
deriving DecidableEq, Repr

/-- A place by the names that lead to it from a base. -/
structure FileLocation where
  base : FileBase
  names : List Text
deriving DecidableEq, Repr

/-- What stands at a place. -/
inductive FileNode where
  | directory
  | file (contents : Text)
deriving DecidableEq, Repr

namespace FileLocation

/-- The directory above a place. -/
def up (location : FileLocation) : FileLocation :=
  match location.base, location.names with
  | .working, [] => ⟨.above, []⟩
  | base, names => ⟨base, names.dropLast⟩

/-- A place in a directory. -/
def child (location : FileLocation) (name : Text) : FileLocation :=
  { location with names := location.names ++ [name] }

end FileLocation

/-- A path taken apart. -/
structure SplitPath where
  /-- Where the path starts. -/
  base : FileBase
  /-- The names between its slashes, the empty ones left out. -/
  names : List Text
  /-- Whether it ends with a slash. -/
  slashed : Bool
deriving DecidableEq, Repr

namespace SplitPath

/-- The most bytes that a path can have. -/
def longest : Nat := 4095

/-- The most bytes that a name can have. -/
def longestName : Nat := 255

/-- The parts of a path; one that is empty, too long or holds a NUL leads nowhere. -/
def ofText (path : Text) : Except FileReason SplitPath :=
  let slash := '/'.toUInt8
  if path.contains 0 then .error .invalidName
  else if path.isEmpty then .error .missing
  else if longest < path.length then .error .nameTooLong
  else .ok {
    base := if path.head? = some slash then .root else .working
    names := (Text.pieces slash path).filter (!·.isEmpty)
    slashed := path.getLast? = some slash }

end SplitPath

namespace FileTree

/-- The contents of a file, by the names from the working directory. -/
def file? (tree : FileTree) (names : List Text) : Option Text := tree.files.lookup names

/-- Whether a file lies under a place. -/
def hasUnder (tree : FileTree) (names : List Text) : Bool :=
  tree.files.any fun (path, _) => names.isPrefixOf path && names.length < path.length

/-- The customary directories of the root. -/
def systemDirectories : List Text :=
  ["bin", "dev", "etc", "home", "lib", "media", "mnt", "opt", "proc", "root", "run", "sbin", "srv",
    "sys", "tmp", "usr", "var"]

/-- The names of the null device, which is empty and swallows what is written. -/
def nullDevice : List Text := ["dev", "null"]

/-- What stands at a place. -/
def node? (tree : FileTree) (location : FileLocation) : Option FileNode :=
  match location.base, location.names with
  | _, [] => some .directory
  | .working, names =>
    match tree.file? names with
    | some contents => some (.file contents)
    | none => if tree.hasUnder names then some .directory else none
  | .above, _ => none
  | .root, [name] => if systemDirectories.contains name then some .directory else none
  | .root, names => if names = nullDevice then some (.file []) else none

/-- The place that a name leads to from a directory; nothing need stand there. -/
def follow (location : FileLocation) (name : Text) : Except FileReason FileLocation :=
  if name = Text.ofString "." then .ok location
  else if name = Text.ofString ".." then .ok location.up
  else if SplitPath.longestName < name.length then .error .nameTooLong
  else .ok (location.child name)

/-- The directory that a name leads to from a directory. -/
def enter (tree : FileTree) (location : FileLocation) (name : Text) :
    Except FileReason FileLocation := do
  let place ← follow location name
  match tree.node? place with
  | some .directory => return place
  | some (.file _) => throw .notDirectory
  | none => throw .missing

/-- The directory that the names of a path but the last lead to. -/
def directoryOf (tree : FileTree) (path : SplitPath) : Except FileReason FileLocation :=
  path.names.dropLast.foldlM tree.enter ⟨path.base, []⟩

/-- The place that a path names, in a directory that has to be there. -/
def locate (tree : FileTree) (path : SplitPath) : Except FileReason FileLocation := do
  let directory ← tree.directoryOf path
  match path.names.getLast? with
  | some name => follow directory name
  | none => return directory

/-- Whether the last name of a path is a plain one, by which a file can be made. -/
def isPlain (path : SplitPath) : Bool :=
  match path.names.getLast? with
  | some name => name != Text.ofString "." && name != Text.ofString ".."
  | none => false

/-- The place of the file that a path is to make or change. That a path with a slash at its end names
a directory is found before its last name is looked at. -/
def locateForWriting (tree : FileTree) (path : SplitPath) : Except FileReason FileLocation := do
  let _ ← tree.directoryOf path
  if path.slashed && isPlain path then throw .isDirectory
  let location ← tree.locate path
  if tree.node? location = some .directory then throw .isDirectory
  return location

/-- The contents of the file that a path names. A directory opens and then fails to be read. -/
def read (tree : FileTree) (path : Text) : Except FileFault Text :=
  let failed (step : FileStep) (reason : FileReason) : Except FileFault Text :=
    .error { step, path, reason }
  match SplitPath.ofText path with
  | .error reason => failed .opening reason
  | .ok parts =>
    match tree.locate parts with
    | .error reason => failed .opening reason
    | .ok location =>
      match tree.node? location with
      | none => failed .opening .missing
      | some .directory => failed .reading .isDirectory
      | some (.file contents) =>
        if parts.slashed then failed .opening .notDirectory else .ok contents

/-- The tree with the contents of a file set. -/
def set (tree : FileTree) (names : List Text) (contents : Text) : FileTree :=
  { files := tree.files.filter (fun file => file.1 != names) ++ [(names, contents)] }

/-- The tree after writing the file that a path names. -/
def write (tree : FileTree) (path contents : Text) : Except FileFault FileTree :=
  match SplitPath.ofText path >>= tree.locateForWriting with
  | .error reason => .error { step := .opening, path, reason }
  | .ok location =>
    match location.base with
    | .working => .ok (tree.set location.names contents)
    | .above => .ok tree
    | .root => .ok tree

/-- A host on a file tree. -/
def host (timestamp : Text) : Host (StateM FileTree) where
  readFile path := return (← MonadState.get).read path
  writeFile path contents := do
    match (← MonadState.get).write path contents with
    | .ok changed =>
      MonadState.set changed
      return .ok ()
    | .error fault => return .error fault
  timestamp
  terminal := false

end FileTree

end PicaShader
