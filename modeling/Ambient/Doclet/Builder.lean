import Ambient.Doclet.Basic
/-!
# Building doclets

Short ways to write down the records that a documentation run yields for common declarations.

## Main definitions

* `Doclet.cutLongname`: the parent and the name within a longname.
* `Doclet.classNamed`, `Doclet.typedefNamed`, `Doclet.callbackNamed`: types.
* `Doclet.methodOf`, `Doclet.functionIn`, `Doclet.propertyOf`: members.
* `Param.named`, `Param.optionalNamed`: parameters.
* `Doclet.markedApi`: the record with an `api` tag.
-/

namespace Ambient

namespace Param

/-- A parameter with a type; an empty name leaves it unnamed. -/
def named (name : String) (types : List String) : Param :=
  { type := Annotation.ofNames? types
    name := if name.isEmpty then none else some name }

/-- A parameter that may be left out. -/
def optionalNamed (name : String) (types : List String) : Param :=
  { named name types with optionalMark := some true }

end Param

namespace Doclet

/-- The parent and the name within a longname, cut at its last `#`, `~` or `.`. -/
def cutLongname (longname : String) : Option String × String :=
  let isCut := fun c : Char => c == '#' || c == '~' || c == '.'
  let reversed := longname.toList.reverse
  let name := (reversed.takeWhile fun c => !isCut c).reverse
  match reversed.dropWhile fun c => !isCut c with
  | [] => (none, longname)
  | _ :: parent => (some (String.ofList parent.reverse), String.ofList name)

/-- The return entries for a list of types. -/
def returnEntries (types : List String) : List Param :=
  if types.isEmpty then [] else [Param.typed types]

/-- A declaration of some kind with parent and name taken from its longname. -/
def declared (longname : String) (kind : Kind) : Doclet :=
  let (parent, name) := cutLongname longname
  { name, longname, kind
    memberof := parent
    scope := some (if parent.isSome then .staticMember else .globalMember) }

/-- A class. -/
def classNamed (longname : String) : Doclet :=
  declared longname .classType

/-- A typedef of some types. -/
def typedefNamed (longname : String) (types : List String) : Doclet :=
  { declared longname .typedef with type := Annotation.ofNames? types }

/-- A typedef of one type, with its comment. -/
def callbackNamed (longname type comment : String) : Doclet :=
  { typedefNamed longname [type] with comment }

/-- An instance method of a class. -/
def methodOf (owner name : String) (params : List Param) (types : List String) : Doclet :=
  { name
    longname := owner ++ "#" ++ name
    kind := .function
    memberof := some owner
    scope := some .instanceMember
    params
    returns := returnEntries types }

/-- A static function; an empty module path makes it global. -/
def functionIn (path name : String) (params : List Param) (types : List String) : Doclet :=
  let longname := if path.isEmpty then name else path ++ "." ++ name
  { declared longname .function with params, returns := returnEntries types }

/-- An instance property of a class or typedef. -/
def propertyOf (owner name : String) (types : List String) : Doclet :=
  { name
    longname := owner ++ "#" ++ name
    kind := .member
    memberof := some owner
    scope := some .instanceMember
    type := Annotation.ofNames? types }

/-- The record with an `api` tag. -/
def markedApi (d : Doclet) : Doclet :=
  { d with tags := d.tags ++ [Tag.ofTitle "api" ""] }

end Doclet

end Ambient
