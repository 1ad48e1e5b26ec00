import Ambient.Text.Search
/-!
# Paths as text

Paths are kept as they were given, since messages show them. Nothing here looks at files.

## Main definitions

* `FilePath.join`: a path below a directory.
* `FilePath.parent?`: the directory that a path names something in.
* `FilePath.ancestors`: a path, its parent and so on up to the root or the working directory.
* `FilePath.ending?`: the part of the last name after its last point.
-/

namespace Ambient.FilePath

/-- Whether a path starts at the root. -/
def isAbsolute (path : String) : Bool :=
  path.toList.head? = some '/'

/-- A path below a directory. An absolute path stands for itself. -/
def join (directory path : String) : String :=
  if isAbsolute path then path
  else if directory.isEmpty || directory.toList.getLast? = some '/' then directory ++ path
  else directory ++ "/" ++ path

/-- The names of a path, without empty ones. -/
def names (path : String) : List String :=
  (path.splitOn "/").filter fun name => name != ""

/-- The names of a path that matter for its parent: a point stands for nothing, except at the start
of a relative path. -/
def steps (path : String) : List String :=
  match names path with
  | [] => []
  | first :: rest =>
    let rest := rest.filter fun name => name != "."
    if first = "." ∧ isAbsolute path then rest else first :: rest

/-- The path with some steps. -/
def ofSteps (absolute : Bool) (steps : List String) : String :=
  (if absolute then "/" else "") ++ "/".intercalate steps

/-- The directory that a path names something in; empty for the working directory. -/
def parent? (path : String) : Option String :=
  match steps path with
  | [] => none
  | steps => some (ofSteps (isAbsolute path) steps.dropLast)

/-- The paths for the beginnings of a list of steps, longest first; the empty path is left out. -/
def beginnings (absolute : Bool) (steps : List String) : List String :=
  ((List.range (steps.length + 1)).reverse.map fun count =>
    ofSteps absolute (steps.take count)).filter fun path => path != ""

/-- A path, its parent and so on, up to the root or the working directory. -/
def ancestors (path : String) : List String :=
  match steps path with
  | [] => if path.isEmpty then [] else [path]
  | steps => path :: beginnings (isAbsolute path) steps.dropLast

/-- The last name of a path, if it names something. -/
def lastName? (path : String) : Option String :=
  (steps path).getLast?.bind fun name => if name = "." ∨ name = ".." then none else some name

/-- The part of the last name after its last point. A point at the start does not count. -/
def ending? (path : String) : Option String := do
  let name ← lastName? path
  let reversed := name.toList.reverse
  let ending := reversed.takeWhile (· != '.')
  match reversed.dropWhile (· != '.') with
  | '.' :: _ :: _ => some (String.ofList ending.reverse)
  | _ => none

end Ambient.FilePath
