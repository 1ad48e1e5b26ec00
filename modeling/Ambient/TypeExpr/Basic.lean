import Ambient.TypeExpr.Form
/-!
# Type expressions

A type expression as a tree, with its TypeScript text and with what reading it ran into.

## Main definitions

* `TypeExpr`: the tree. Marks of nullability and optionality leave no trace in it.
* `TypeExpr.read`: the tree of a raw text, given a table of replacements.
* `TypeExpr.print`: the TypeScript type.
* `TypeExpr.events`: the names and the untyped arrays in it, from left to right.

## Design notes

Reading is total: a text of no known form is a name. The text of a tree and the events in it are
functions of the tree alone, so what is printed and what is reported cannot drift apart.
-/

namespace Ambient

/-- A type expression. -/
inductive TypeExpr
  /-- A text for which the table of replacements has an entry. -/
  | replaced (text : String)
  | array (element : TypeExpr)
  | dictionary (key value : TypeExpr)
  | generic (base : TypeExpr) (args : List TypeExpr)
  | function (arguments : List (TypeExpr.Argument TypeExpr)) (returns : Option TypeExpr)
  /-- The bare word `array`, as it was spelled. -/
  | untypedArray (word : String)
  | union (members : List TypeExpr)
  | group (inner : TypeExpr)
  | record (fields : List (TypeExpr.Field TypeExpr))
  | named (text : String)

namespace TypeExpr

/-! ## Reading -/

/-- The tree of a raw text. The table of replacements is asked first, for every part anew. -/
def read (replacement? : String → Option String) (raw : List Char) : TypeExpr :=
  let name := Text.trim raw
  match replacement? (String.ofList name) with
  | some text => .replaced text
  | none =>
    match _form : Form.of name with
    | .array element => .array (read replacement? element)
    | .dictionary key value => .dictionary (read replacement? key) (read replacement? value)
    | .generic base args =>
      .generic (read replacement? base)
        (args.attach.map fun ⟨arg, _⟩ => read replacement? arg)
    | .function signature =>
      .function
        (signature.arguments.attach.map fun ⟨argument, _⟩ =>
          { argument with type := read replacement? argument.type })
        (match _returns : signature.returns with
          | some type => some (read replacement? type)
          | none => none)
    | .untypedArray => .untypedArray (String.ofList name)
    | .union members => .union (members.attach.map fun ⟨member, _⟩ => read replacement? member)
    | .group inner => .group (read replacement? inner)
    | .record fields =>
      .record (fields.attach.map fun ⟨field, _⟩ =>
        match field with
        | .keyed key (some type) => .keyed key (some (read replacement? type))
        | .keyed key none => .keyed key none
        | .verbatim text => .verbatim text)
    | .marked inner => read replacement? inner
    | .named => .named (String.ofList name)
termination_by raw.length
decreasing_by
  all_goals
    refine Nat.lt_of_lt_of_le (Form.length_of_mem_parts ?_) (Text.length_trim_le raw)
    rw [_form]
    simp only [Form.parts, List.mem_cons, List.mem_append, List.mem_map, List.mem_flatMap,
      Option.mem_toList, List.not_mem_nil, or_false, true_or, or_true]
  · exact Or.inr (by assumption)
  · exact Or.inl ⟨argument, by assumption, rfl⟩
  · exact Or.inr _returns
  · assumption
  · exact ⟨_, by assumption, by simp [Field.parts]⟩

/-! ## Printing -/

mutual

/-- The TypeScript type. Functions without a return type return the default. -/
def print (defaultReturn : String) : TypeExpr → String
  | .replaced text => text
  | .array element => print defaultReturn element ++ "[]"
  | .dictionary key value =>
    "\x7b [key: " ++ print defaultReturn key ++ "]: " ++ print defaultReturn value ++ "; \x7d"
  | .generic base args =>
    print defaultReturn base ++ "<" ++ Text.joinWith ", " (printAll defaultReturn args) ++ ">"
  | .function arguments returns =>
    Signature.print ⟨printTypes defaultReturn arguments, printReturns defaultReturn returns⟩
      defaultReturn
  | .untypedArray _ => "any[]"
  | .union members => Text.joinWith "|" (printAll defaultReturn members)
  | .group inner => "(" ++ print defaultReturn inner ++ ")"
  | .record [] => "\x7b\x7d"
  | .record (field :: fields) =>
    "\x7b " ++ Text.joinWith " " (printFields defaultReturn (field :: fields)) ++ " \x7d"
  | .named text => text

/-- The TypeScript types of a list. -/
def printAll (defaultReturn : String) : List TypeExpr → List String
  | [] => []
  | type :: types => print defaultReturn type :: printAll defaultReturn types

/-- Arguments with their types printed. -/
def printTypes (defaultReturn : String) : List (Argument TypeExpr) → List (Argument String)
  | [] => []
  | ⟨type, isOptional, isRest⟩ :: arguments =>
    ⟨print defaultReturn type, isOptional, isRest⟩ :: printTypes defaultReturn arguments

/-- A return type, printed if there is one. -/
def printReturns (defaultReturn : String) : Option TypeExpr → Option String
  | some type => some (print defaultReturn type)
  | none => none

/-- The entries of a record type. -/
def printFields (defaultReturn : String) : List (Field TypeExpr) → List String
  | [] => []
  | .keyed key (some type) :: fields =>
    (key ++ ": " ++ print defaultReturn type ++ ";") :: printFields defaultReturn fields
  | .keyed key none :: fields => (key ++ ": any;") :: printFields defaultReturn fields
  | .verbatim text :: fields => (text ++ ";") :: printFields defaultReturn fields

end

/-! ## Events -/

/-- What reading a type expression can run into. -/
inductive Event
  /-- A name that is no replaced text. -/
  | reference (name : String)
  /-- The word `array` without an element type, as it was spelled. -/
  | untypedArray (word : String)
  deriving DecidableEq, Repr

mutual

/-- The names and the untyped arrays of a tree, from left to right. -/
def events : TypeExpr → List Event
  | .replaced _ => []
  | .array element => events element
  | .dictionary key value => events key ++ events value
  | .generic base args => events base ++ eventsAll args
  | .function arguments returns => eventsTypes arguments ++ eventsReturns returns
  | .untypedArray word => [.untypedArray word]
  | .union members => eventsAll members
  | .group inner => events inner
  | .record fields => eventsFields fields
  | .named text => [.reference text]

/-- The events of a list of trees. -/
def eventsAll : List TypeExpr → List Event
  | [] => []
  | type :: types => events type ++ eventsAll types

/-- The events of the arguments of a function type. -/
def eventsTypes : List (Argument TypeExpr) → List Event
  | [] => []
  | ⟨type, _, _⟩ :: arguments => events type ++ eventsTypes arguments

/-- The events of a return type. -/
def eventsReturns : Option TypeExpr → List Event
  | some type => events type
  | none => []

/-- The events of the entries of a record type. -/
def eventsFields : List (Field TypeExpr) → List Event
  | [] => []
  | .keyed _ (some type) :: fields => events type ++ eventsFields fields
  | .keyed _ none :: fields => eventsFields fields
  | .verbatim _ :: fields => eventsFields fields

end

/-- The names among some events. -/
def Event.references (events : List Event) : List String :=
  events.filterMap fun event =>
    match event with
    | .reference name => some name
    | .untypedArray _ => none

/-- The spellings of untyped arrays among some events. -/
def Event.untypedArrays (events : List Event) : List String :=
  events.filterMap fun event =>
    match event with
    | .reference _ => none
    | .untypedArray word => some word

end TypeExpr

end Ambient
