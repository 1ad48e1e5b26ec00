import Ambient.Declaration.Rendering
/-!
# The tree of modules

Declarations are arranged by the path of their module. The segments of a dotted path nest; a path
with slashes is one flat module of its own.

## Main definitions

* `Outline`: a level with its types, its members and the levels inside.
* `Outline.keysOf`: the keys that lead to the level of a path.
* `Outline.insert`, `Outline.ofDeclarations`: arrange declarations.
* `Outline.get?`: the level of a path.
* `Outline.render`: the rendering of a tree.

## Main statements

* `Outline.keysOf_none`, `Outline.keysOf_empty`, `Outline.keysOf_of_slash`,
  `Outline.keysOf_of_not_slash`: the keys of each kind of path.
-/

namespace Ambient

/-- Where a level stands. -/
inductive Place
  /-- The level of global declarations. -/
  | global
  /-- A module right under it. -/
  | topModule
  /-- A module inside another one. -/
  | nestedModule
  deriving DecidableEq, Repr

namespace Place

/-- The place of the levels inside a level. -/
def inside : Place → Place
  | .global => .topModule
  | .topModule => .nestedModule
  | .nestedModule => .nestedModule

end Place

/-- A level of the tree: its place, its types, its other declarations, and the levels inside by
name. -/
inductive Outline
  | level (place : Place) (types members : List Declaration)
      (children : List (String × Outline))

namespace Outline

/-- A level without content. -/
def emptyAt (place : Place) : Outline := .level place [] [] []

/-- The level of global declarations, without content. -/
def empty : Outline := emptyAt .global

def place : Outline → Place
  | .level place _ _ _ => place

def types : Outline → List Declaration
  | .level _ types _ _ => types

def members : Outline → List Declaration
  | .level _ _ members _ => members

def children : Outline → List (String × Outline)
  | .level _ _ _ children => children

/-- The keys that lead to the level of a module path: none for global scope, the whole path if it
has a slash, else its segments, of which empty ones are left out. -/
def keysOf (path : Option String) : List String :=
  match path with
  | none => []
  | some path =>
    if path.isEmpty then []
    else if path.toList.contains '/' then [path]
    else
      let segments := Text.splitOn (· == '.') path.toList
      (segments.filter fun segment => !segment.isEmpty).map String.ofList

@[simp] theorem keysOf_none : keysOf none = [] := rfl

/-- An empty path leads to global scope. -/
@[simp] theorem keysOf_empty : keysOf (some "") = [] := rfl

/-- A path with a slash is one key. -/
theorem keysOf_of_slash {path : String} (slash : '/' ∈ path.toList) :
    keysOf (some path) = [path] := by
  have filled : path ≠ "" := by
    rintro rfl
    cases slash
  simp [keysOf, filled, slash]

/-- The keys of any other path are its segments that are not empty. -/
theorem keysOf_of_not_slash {path : String} (noSlash : '/' ∉ path.toList) :
    keysOf (some path) =
      ((Text.splitOn (· == '.') path.toList).filter fun segment => !segment.isEmpty).map
        String.ofList := by
  by_cases bare : path = ""
  · subst bare
    rfl
  · simp [keysOf, bare, noSlash]

/-- Put a declaration on a level: types and other declarations are kept apart. -/
def push (d : Declaration) : Outline → Outline
  | .level place types members children =>
    if d.isType then .level place (types ++ [d]) members children
    else .level place types (members ++ [d]) children

/-- Change the child of a name; a child that is not there yet is made of `fresh` first. -/
def alterChild (fresh : Outline) (f : Outline → Outline) (name : String) :
    List (String × Outline) → List (String × Outline)
  | [] => [(name, f fresh)]
  | (key, child) :: rest =>
    if key = name then (key, f child) :: rest else (key, child) :: alterChild fresh f name rest

/-- Put a declaration on the level that some keys lead to; missing levels are made. -/
def insertAt (d : Declaration) : List String → Outline → Outline
  | [], tree => tree.push d
  | key :: keys, .level place types members children =>
    .level place types members
      (alterChild (emptyAt place.inside) (insertAt d keys) key children)

/-- Put a declaration on the level of its module. -/
def insert (tree : Outline) (d : Declaration) : Outline :=
  tree.insertAt d (keysOf d.modulePath)

/-- The tree of some declarations. -/
def ofDeclarations (declarations : List Declaration) : Outline :=
  declarations.foldl insert empty

/-- The level that some keys lead to. -/
def descend? : List String → Outline → Option Outline
  | [], tree => some tree
  | key :: keys, .level _ _ _ children =>
    match children.lookup key with
    | some child => descend? keys child
    | none => none

/-- The level of a module path. Every segment of a dotted path counts here, also an empty one. -/
def get? (tree : Outline) (path : String) : Option Outline :=
  if path.toList.contains '/' then descend? [path] tree
  else descend? ((Text.splitOn (· == '.') path.toList).map String.ofList) tree

/-- The name of a module in its header; a name with a slash is put into quotes. -/
def headerName (name : String) : String :=
  if name.toList.contains '/' then "\"" ++ name ++ "\"" else name

/-- The header of a module block, without its brace. -/
def header (c : Config) (place : Place) (name : String) : String :=
  (if place = .topModule ∧ c.declaresTopLevel then "declare " else "") ++
    "module " ++ headerName name

mutual

/-- The rendering of a tree at a level of indentation: types, members, and then the modules
inside. -/
def render (c : Config) (indentation : Nat) : Outline → Rendering
  | .level _ types members children =>
    Declaration.renderAll c indentation types ++ Declaration.renderAll c indentation members ++
      renderChildren c indentation children

/-- The renderings of modules as blocks. -/
def renderChildren (c : Config) (indentation : Nat) : List (String × Outline) → Rendering
  | [] => {}
  | (name, child) :: rest =>
    .block [.text (header c child.place name)] (render c (indentation + 1) child) ++
      renderChildren c indentation rest

end

end Outline

end Ambient
