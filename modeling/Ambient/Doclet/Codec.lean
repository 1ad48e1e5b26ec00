import Ambient.Doclet.Basic
import Ambient.Json.Shape
/-!
# Doclets as JSON

## Main definitions

* `Doclet.toJson`, `Param.toJson`, `Tag.toJson`, `Annotation.toJson`: write a record. Fields that
  are not set, and empty lists, are left out.
* `Doclet.ofJson?` and so on: read a record from a value. Unknown fields are ignored.
* `Doclet.shape`: the same conditions as a shape of JSON text.
* `Doclet.ofText`, `Doclet.listOfText`: read records from JSON text.
-/

namespace Ambient

/-- Write a member if its value is set. -/
def Json.memberIf {α : Type} (key : String) (f : α → Json) : Option α → List (String × Json)
  | some a => [(key, f a)]
  | none => []

/-- Write a list member if the list is not empty. -/
def Json.memberUnlessEmpty {α : Type} (key : String) (f : α → Json) :
    List α → List (String × Json)
  | [] => []
  | a :: rest => [(key, .arr ((a :: rest).map f))]

/-- A word, written as a string or as the only key of an object that holds `null`. -/
def Json.word? : Json → Option String
  | .str s => some s
  | .obj [(key, .null)] => some key
  | _ => none

/-- A field that is passed on as it is; `null` counts as not set. -/
def Json.embedded? : Option Json → Option (Option Json)
  | some .null => some none
  | field => some field

namespace Annotation

def toJson (t : Annotation) : Json := .obj [("names", .ofStrings t.names)]

def fieldNames : List String := ["names"]

def ofJson? (v : Json) : Option Annotation := do
  let get ← v.record? fieldNames false
  pure { names := ← Json.withDefault? (Json.listOf? Json.str?) [] (get "names") }

def shape : Json.Shape := .record [("names", .list .string)] []

end Annotation

namespace Param

def toJson (p : Param) : Json :=
  .obj (Json.memberIf "type" Annotation.toJson p.type ++
    Json.memberIf "name" .str p.name ++
    Json.memberIf "description" .str p.description ++
    Json.memberIf "optional" .bool p.optionalMark ++
    Json.memberIf "nullable" .bool p.nullableMark ++
    Json.memberIf "variable" .bool p.restMark ++
    Json.memberIf "defaultvalue" id p.defaultValue)

def fieldNames : List String :=
  ["type", "name", "description", "optional", "nullable", "variable", "defaultvalue"]

def ofJson? (v : Json) : Option Param := do
  let get ← v.record? fieldNames false
  pure {
    type := ← Json.optional? Annotation.ofJson? (get "type")
    name := ← Json.optional? Json.str? (get "name")
    description := ← Json.optional? Json.str? (get "description")
    optionalMark := ← Json.optional? Json.bool? (get "optional")
    nullableMark := ← Json.optional? Json.bool? (get "nullable")
    restMark := ← Json.optional? Json.bool? (get "variable")
    defaultValue := ← Json.embedded? (get "defaultvalue") }

def shape : Json.Shape :=
  .record
    [("type", .optional Annotation.shape), ("name", .optional .string),
      ("description", .optional .string), ("optional", .optional .boolean),
      ("nullable", .optional .boolean), ("variable", .optional .boolean),
      ("defaultvalue", .optional .anything)]
    []

end Param

namespace Tag

def toJson (t : Tag) : Json :=
  .obj ([("originalTitle", .str t.originalTitle), ("title", .str t.title), ("text", .str t.text)] ++
    Json.memberIf "value" id t.value)

def fieldNames : List String := ["originalTitle", "title", "text", "value"]

def ofJson? (v : Json) : Option Tag := do
  let get ← v.record? fieldNames false
  pure {
    originalTitle := ← Json.withDefault? Json.str? "" (get "originalTitle")
    title := ← (get "title").bind Json.str?
    text := ← Json.withDefault? Json.str? "" (get "text")
    value := ← Json.embedded? (get "value") }

def shape : Json.Shape :=
  .record
    [("originalTitle", .string), ("title", .string), ("text", .string),
      ("value", .optional .anything)]
    ["title"]

end Tag

namespace Doclet

namespace Kind

/-- The word written for a kind. -/
def text : Kind → String
  | .classType => "class"
  | .typedef => "typedef"
  | .function => "function"
  | .member => "member"
  | .value => "value"
  | .moduleUnit => "module"
  | .constant => "constant"
  | .other => "other"

/-- The kind with a given word; words of no kind of their own stand for `other`. -/
def ofText (text : String) : Kind :=
  match text with
  | "class" => .classType
  | "typedef" => .typedef
  | "function" => .function
  | "member" => .member
  | "value" => .value
  | "module" => .moduleUnit
  | "constant" => .constant
  | _ => .other

@[simp] theorem ofText_text (k : Kind) : ofText k.text = k := by cases k <;> rfl

end Kind

namespace Scope

/-- The word written for a scope. -/
def text : Scope → String
  | .staticMember => "static"
  | .instanceMember => "instance"
  | .innerMember => "inner"
  | .globalMember => "global"

/-- The scope with a given word. -/
def ofText? (text : String) : Option Scope :=
  match text with
  | "static" => some .staticMember
  | "instance" => some .instanceMember
  | "inner" => some .innerMember
  | "global" => some .globalMember
  | _ => none

@[simp] theorem ofText?_text (s : Scope) : ofText? s.text = some s := by cases s <;> rfl

end Scope

namespace Access

/-- The word written for an access. -/
def text : Access → String
  | .publicAccess => "public"
  | .protectedAccess => "protected"
  | .privateAccess => "private"
  | .packageAccess => "package"

/-- The access with a given word. -/
def ofText? (text : String) : Option Access :=
  match text with
  | "public" => some .publicAccess
  | "protected" => some .protectedAccess
  | "private" => some .privateAccess
  | "package" => some .packageAccess
  | _ => none

@[simp] theorem ofText?_text (a : Access) : ofText? a.text = some a := by cases a <;> rfl

end Access

def toJson (d : Doclet) : Json :=
  .obj ([("name", .str d.name), ("longname", .str d.longname), ("kind", .str d.kind.text)] ++
    Json.memberIf "memberof" .str d.memberof ++
    Json.memberIf "scope" (fun s : Scope => .str s.text) d.scope ++
    Json.memberIf "access" (fun a : Access => .str a.text) d.access ++
    Json.memberIf "description" .str d.description ++
    Json.memberIf "classdesc" .str d.classdesc ++
    Json.memberIf "type" Annotation.toJson d.type ++
    Json.memberUnlessEmpty "params" Param.toJson d.params ++
    Json.memberUnlessEmpty "returns" Param.toJson d.returns ++
    Json.memberUnlessEmpty "properties" Param.toJson d.properties ++
    Json.memberUnlessEmpty "tags" Tag.toJson d.tags ++
    Json.memberUnlessEmpty "augments" .str d.augments ++
    [("comment", .str d.comment), ("undocumented", .bool d.undocumented),
      ("inherited", .bool d.inherited)] ++
    Json.memberIf "nullable" .bool d.nullable ++
    Json.memberIf "optional" .bool d.isOptional)

def fieldNames : List String :=
  ["name", "longname", "kind", "memberof", "scope", "access", "description", "classdesc", "type",
    "params", "returns", "properties", "tags", "augments", "comment", "undocumented", "inherited",
    "nullable", "optional"]

def ofJson? (v : Json) : Option Doclet := do
  let get ← v.record? fieldNames false
  pure {
    name := ← Json.withDefault? Json.str? "" (get "name")
    longname := ← Json.withDefault? Json.str? "" (get "longname")
    kind := ← Json.withDefault? (fun v => v.word?.map Kind.ofText) .member (get "kind")
    memberof := ← Json.optional? Json.str? (get "memberof")
    scope := ← Json.optional? (fun v => v.word?.bind Scope.ofText?) (get "scope")
    access := ← Json.optional? (fun v => v.word?.bind Access.ofText?) (get "access")
    description := ← Json.optional? Json.str? (get "description")
    classdesc := ← Json.optional? Json.str? (get "classdesc")
    type := ← Json.optional? Annotation.ofJson? (get "type")
    params := ← Json.withDefault? (Json.listOf? Param.ofJson?) [] (get "params")
    returns := ← Json.withDefault? (Json.listOf? Param.ofJson?) [] (get "returns")
    properties := ← Json.withDefault? (Json.listOf? Param.ofJson?) [] (get "properties")
    tags := ← Json.withDefault? (Json.listOf? Tag.ofJson?) [] (get "tags")
    augments := ← Json.withDefault? (Json.listOf? Json.str?) [] (get "augments")
    comment := ← Json.withDefault? Json.str? "" (get "comment")
    undocumented := ← Json.withDefault? Json.bool? false (get "undocumented")
    inherited := ← Json.withDefault? Json.bool? false (get "inherited")
    nullable := ← Json.optional? Json.bool? (get "nullable")
    isOptional := ← Json.optional? Json.bool? (get "optional") }

def shape : Json.Shape :=
  .record
    [("name", .string), ("longname", .string), ("kind", .anyWord),
      ("memberof", .optional .string),
      ("scope", .optional (.word ["static", "instance", "inner", "global"])),
      ("access", .optional (.word ["public", "protected", "private", "package"])),
      ("description", .optional .string), ("classdesc", .optional .string),
      ("type", .optional Annotation.shape),
      ("params", .list Param.shape), ("returns", .list Param.shape),
      ("properties", .list Param.shape), ("tags", .list Tag.shape),
      ("augments", .list .string), ("comment", .string),
      ("undocumented", .boolean), ("inherited", .boolean),
      ("nullable", .optional .boolean), ("optional", .optional .boolean)]
    []

/-- Decode what was read from a text. -/
def fits {α : Type} : Option α → Except Json.TextError α
  | some a => .ok a
  | none => .error .mismatch

/-- Read one record from JSON text. -/
def ofText (text : String) : Except Json.TextError Doclet := do
  fits (ofJson? (← shape.parse text))

/-- Read a list of records from JSON text. -/
def listOfText (text : String) : Except Json.TextError (List Doclet) := do
  fits (Json.listOf? ofJson? (← (Json.Shape.list shape).parse text))

end Doclet

end Ambient
