import Ambient.FilePath
/-!
# Access to files

What a run needs of a file system, as operations of some monad. A program on real files and a run on
files in memory differ in these operations only.

## Main definitions

* `FileFault`: why an operation on a file failed.
* `FileAccess`: the operations.
* `FileAccess.makeDirectories`: make a directory with all its parents.
-/

namespace Ambient

/-- Why an operation on a file failed. -/
inductive FileFault
  | notFound
  | alreadyExists
  | isDirectory
  | notDirectory
  /-- The file holds bytes that are no text. -/
  | notText
  /-- A reason of the machine that the program runs on. -/
  | other (text : String)
  deriving DecidableEq, Repr

/-- What the machine says about a failed operation. -/
def FileFault.message : FileFault → String
  | .notFound => "No such file or directory (os error 2)"
  | .alreadyExists => "File exists (os error 17)"
  | .isDirectory => "Is a directory (os error 21)"
  | .notDirectory => "Not a directory (os error 20)"
  | .notText => "stream did not contain valid UTF-8"
  | .other text => text

/-- Operations on files, each with the path it is about. -/
structure FileAccess (m : Type → Type) where
  /-- Whether there is a file or a directory. -/
  pathExists : String → m Bool
  /-- Whether there is a directory. -/
  directoryExists : String → m Bool
  /-- The text of a file. -/
  readText : String → m (Except FileFault String)
  /-- Give a file a text. A file that is not there is made. -/
  writeText : String → String → m (Except FileFault Unit)
  /-- Make a directory in a directory that is there. -/
  makeDirectory : String → m (Except FileFault Unit)

namespace FileAccess

variable {m : Type → Type} [Monad m]

/-- Make a directory. The rest of the list are its ancestors, nearest first; those that are missing
are made before it. A directory that is there already is left as it is. -/
def makeMissing (files : FileAccess m) : List String → m (Except FileFault Unit)
  | [] => pure (.ok ())
  | path :: parents => do
    let unlessThere (fault : FileFault) : m (Except FileFault Unit) := do
      if ← files.directoryExists path then pure (.ok ()) else pure (.error fault)
    match ← files.makeDirectory path with
    | .ok () => pure (.ok ())
    | .error .notFound =>
      match ← files.makeMissing parents with
      | .error fault => pure (.error fault)
      | .ok () =>
        match ← files.makeDirectory path with
        | .ok () => pure (.ok ())
        | .error fault => unlessThere fault
    | .error fault => unlessThere fault

/-- Make a directory with all its parents. -/
def makeDirectories (files : FileAccess m) (path : String) : m (Except FileFault Unit) :=
  files.makeMissing (FilePath.ancestors path)

end FileAccess

end Ambient
