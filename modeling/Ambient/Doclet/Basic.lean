import Ambient.Json.Value
import Ambient.Text.Blank
import Ambient.Text.Search
/-!
# Doclets

A doclet is one record of a documentation run: a class, a function, a typedef and so on, with what
its comment says about it.

## Main definitions

* `Doclet`: the record, with `Doclet.Kind`, `Doclet.Scope`, `Doclet.Access`.
* `Annotation`: a type annotation, a list of raw type expressions of which any may hold.
* `Param`: a parameter, a return value or a property of a typedef.
* `Tag`: a tag of the comment that has no field of its own.
* `Doclet.placeholders`: the placeholders of a generic declaration.
* `Doclet.isPublicByItself`: whether the record by itself belongs to the public surface.
-/

namespace Ambient

/-- A type annotation: the raw type expressions of an alternative. -/
structure Annotation where
  names : List String := []
  deriving DecidableEq

namespace Annotation

/-- Whether `undefined` is among the alternatives. -/
def allowsUndefined (t : Annotation) : Bool :=
  t.names.any fun name => name == "undefined"

/-- Whether `null` or `undefined` is among the alternatives. -/
def allowsMissing (t : Annotation) : Bool :=
  t.names.any fun name => name == "null" || name == "undefined"

/-- A type annotation with the given alternatives; none if there are no alternatives. -/
def ofNames? (names : List String) : Option Annotation :=
  if names.isEmpty then none else some ⟨names⟩

end Annotation

/-- A parameter, a return value or a property of a typedef. -/
structure Param where
  type : Option Annotation := none
  name : Option String := none
  description : Option String := none
  optionalMark : Option Bool := none
  nullableMark : Option Bool := none
  restMark : Option Bool := none
  defaultValue : Option Json := none

namespace Param

/-- An entry of which only the type is known. -/
def typed (names : List String) : Param := { type := some ⟨names⟩ }

/-- The raw type expressions; none if the entry has no type. -/
def alternatives (p : Param) : List String :=
  match p.type with
  | some type => type.names
  | none => []

/-- Whether the argument may be left out. -/
def isOptional (p : Param) : Bool := p.optionalMark.getD false

/-- Whether the parameter takes all further arguments. -/
def isRest (p : Param) : Bool := p.restMark.getD false

/-- Whether the type has `undefined` among its alternatives. -/
def allowsUndefined (p : Param) : Bool :=
  match p.type with
  | some type => type.allowsUndefined
  | none => false

/-- Whether the entry documents a field of another parameter, as `options.size` does. -/
def isNested (p : Param) : Bool :=
  match p.name with
  | some name => name.toList.contains '.'
  | none => false

end Param

/-- A tag of a comment. -/
structure Tag where
  originalTitle : String := ""
  title : String
  text : String := ""
  value : Option Json := none

namespace Tag

/-- A tag as it is written, with its text. -/
def ofTitle (title text : String) : Tag := { originalTitle := title, title, text }

end Tag

namespace Doclet

/-- What kind of thing is documented. -/
inductive Kind
  | classType
  | typedef
  | function
  | member
  | value
  | moduleUnit
  | constant
  /-- Any kind of which no declaration is made. -/
  | other
  deriving DecidableEq, Repr

/-- The kinds that become members of a class, of a typedef or of a module. -/
def Kind.makesMember : Kind → Bool
  | .function | .member | .value | .constant => true
  | .classType | .typedef | .moduleUnit | .other => false

/-- The kinds that become types. -/
def Kind.makesType : Kind → Bool
  | .classType | .typedef => true
  | .function | .member | .value | .constant | .moduleUnit | .other => false

/-- The place of a documented thing relative to its parent. -/
inductive Scope
  | staticMember
  | instanceMember
  | innerMember
  | globalMember
  deriving DecidableEq, Repr

/-- The declared access. -/
inductive Access
  | publicAccess
  | protectedAccess
  | privateAccess
  | packageAccess
  deriving DecidableEq, Repr

end Doclet

/-- One record of a documentation run. -/
structure Doclet where
  name : String := ""
  longname : String := ""
  kind : Doclet.Kind := .member
  memberof : Option String := none
  scope : Option Doclet.Scope := none
  access : Option Doclet.Access := none
  description : Option String := none
  classdesc : Option String := none
  type : Option Annotation := none
  params : List Param := []
  returns : List Param := []
  properties : List Param := []
  tags : List Tag := []
  augments : List String := []
  comment : String := ""
  undocumented : Bool := false
  inherited : Bool := false
  nullable : Option Bool := none
  isOptional : Option Bool := none

namespace Doclet

/-- The raw type expressions; none if the record has no type. -/
def alternatives (d : Doclet) : List String :=
  match d.type with
  | some type => type.names
  | none => []

/-- Whether the declared type is the single word `function`. -/
def isPlainFunction (d : Doclet) : Bool :=
  d.alternatives == ["function"]

/-- A module path without the mark of modules in front. -/
def bareModulePath (path : String) : String :=
  (Text.afterStart? "module:" path).getD path

/-- The path of the module that holds the declaration. -/
def modulePath (d : Doclet) : Option String :=
  d.memberof.map bareModulePath

/-- Whether the record is a static member. -/
def isStatic (d : Doclet) : Bool :=
  d.scope = some .staticMember

/-- Whether the comment has a tag of the given title. -/
def hasTag (d : Doclet) (title : String) : Bool :=
  d.tags.any fun tag => tag.title == title

/-- The placeholder of one entry of a template list: its first word. -/
def placeholder (entry : List Char) : List Char :=
  entry.takeWhile fun c => !Text.isBlank c

/-- The placeholders of a generic declaration, in the order of its `template` tags. Each tag lists
some, separated by commas; what follows the first word of an entry is its description. -/
def placeholders (d : Doclet) : List String :=
  let tags := d.tags.filter fun tag => tag.title == "template"
  let entries := tags.flatMap fun tag => Text.splitOn (· == ',') tag.text.toList
  let bare := (entries.map Text.trim).filter fun entry => !entry.isEmpty
  bare.map fun entry => String.ofList (placeholder entry)

/-- Whether the record by itself is public. If a tag marks what is public, only that tag counts;
otherwise everything is public except what is declared private or package-private. -/
def isPublicByItself (d : Doclet) : Option String → Bool
  | some annotation => d.hasTag annotation
  | none => d.access != some .privateAccess && d.access != some .packageAccess

/-- The characters after which the last segment of a longname starts. -/
def isLongnameJoint (c : Char) : Bool :=
  c == '.' || c == '~' || c == '#' || c == '/'

/-- The name a declaration is printed under: the record's name, or else the last segment of its
longname. -/
def printedName (d : Doclet) : String :=
  if d.name.isEmpty then
    String.ofList ((Text.splitOn isLongnameJoint d.longname.toList).getLastD [])
  else d.name

end Doclet

end Ambient
