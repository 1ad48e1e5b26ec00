import Ambient.FileAccess
/-!
# Files in memory

## Main definitions

* `FileTree`: directories and text files, by the names on the way from the root.
* `FileTree.locate`: where a path leads. Every name on the way must be a directory.
* `FileTree.access`: the operations of `FileAccess` on a tree.
* `FileTree.ofFiles`: a tree with some files and directories below the working directory.
* `FileTree.changedSince`: the files of the working directory that are new or have another text.
-/

namespace Ambient

/-- The names on the way from the root. -/
abbrev Location := List String

/-- Directories and text files. The root and the working directory are always there. -/
structure FileTree where
  /-- The directory that relative paths start from. -/
  workingDirectory : Location
  directories : List Location := []
  files : List (Location × String) := []

namespace FileTree

/-- Whether there is a directory at a location. -/
def isDirectory (t : FileTree) (place : Location) : Bool :=
  place.isPrefixOf t.workingDirectory || t.directories.contains place

/-- The text of the file at a location. -/
def text? (t : FileTree) (place : Location) : Option String :=
  t.files.lookup place

/-- Walk from a directory along some names. The last name need not be there. -/
def walk (t : FileTree) : Location → List String → Except FileFault Location
  | place, [] => .ok place
  | place, "." :: rest => t.walk place rest
  | place, ".." :: rest => t.walk place.dropLast rest
  | place, [name] => .ok (place ++ [name])
  | place, name :: rest =>
    let next := place ++ [name]
    if t.isDirectory next then t.walk next rest
    else if (t.text? next).isSome then .error .notDirectory
    else .error .notFound

/-- What a path leads to. -/
inductive Target
  | directory (place : Location)
  | file (place : Location) (text : String)
  /-- A name that is still free, in a directory that is there. -/
  | free (place : Location)

/-- What a path leads to, and whether it ends as the path of a directory. -/
def locate (t : FileTree) (path : String) : Except FileFault (Target × Bool) := do
  if path.isEmpty then .error .notFound
  let start := if FilePath.isAbsolute path then [] else t.workingDirectory
  let place ← t.walk start (FilePath.names path)
  let target :=
    if t.isDirectory place then .directory place
    else
      match t.text? place with
      | some text => .file place text
      | none => .free place
  pure (target, path.toList.getLast? = some '/')

/-- Whether a path leads to a file or a directory. -/
def pathExists (t : FileTree) (path : String) : Bool :=
  match t.locate path with
  | .ok (.directory _, _) => true
  | .ok (.file _ _, slash) => !slash
  | _ => false

/-- Whether a path leads to a directory. -/
def directoryExists (t : FileTree) (path : String) : Bool :=
  match t.locate path with
  | .ok (.directory _, _) => true
  | _ => false

/-- The text of a file. -/
def readText (t : FileTree) (path : String) : Except FileFault String := do
  match ← t.locate path with
  | (.directory _, _) => .error .isDirectory
  | (.file _ _, true) => .error .notDirectory
  | (.file _ text, false) => .ok text
  | (.free _, _) => .error .notFound

/-- The tree after a file got a text. -/
def writeText (t : FileTree) (path text : String) : Except FileFault FileTree := do
  let put (place : Location) : FileTree :=
    { t with files := t.files.filter (fun file => file.1 != place) ++ [(place, text)] }
  match ← t.locate path with
  | (.directory _, _) => .error .isDirectory
  | (_, true) => .error .isDirectory
  | (.file place _, false) => .ok (put place)
  | (.free place, false) => .ok (put place)

/-- The tree after a directory was made. -/
def makeDirectory (t : FileTree) (path : String) : Except FileFault FileTree := do
  match ← t.locate path with
  | (.free place, _) => .ok { t with directories := t.directories ++ [place] }
  | _ => .error .alreadyExists

/-- Run an operation that changes the tree if it succeeds. -/
def step (operation : FileTree → Except FileFault FileTree) :
    StateM FileTree (Except FileFault Unit) := fun t =>
  match operation t with
  | .ok next => (.ok (), next)
  | .error fault => (.error fault, t)

/-- The operations on a tree. -/
def access : FileAccess (StateM FileTree) where
  pathExists path := fun t => (t.pathExists path, t)
  directoryExists path := fun t => (t.directoryExists path, t)
  readText path := fun t => (t.readText path, t)
  writeText path text := step fun t => t.writeText path text
  makeDirectory path := step fun t => t.makeDirectory path

/-- A tree with some files and directories below the working directory, which is made with their
parents where needed. Paths that cannot be made are left out. -/
def ofFiles (workingDirectory : Location) (directories : List String)
    (files : List (String × String)) : FileTree :=
  let addDirectory (path : String) : StateM FileTree Unit := do
    let _ ← access.makeDirectories path
  let addFile (path text : String) : StateM FileTree Unit := do
    addDirectory ((FilePath.parent? path).getD "")
    let _ ← access.writeText path text
  let build : StateM FileTree Unit := do
    directories.forM addDirectory
    files.forM fun (path, text) => addFile path text
  (build.run { workingDirectory }).2

/-- The files of the working directory, by their paths from there. -/
def localFiles (t : FileTree) : List (String × String) :=
  t.files.filterMap fun (place, text) =>
    if t.workingDirectory.isPrefixOf place then
      some ("/".intercalate (place.drop t.workingDirectory.length), text)
    else none

/-- The files of the working directory that are new or have another text than before. -/
def changedSince (before after : FileTree) : List (String × String) :=
  after.localFiles.filter fun (path, text) => before.localFiles.lookup path != some text

end FileTree

end Ambient
