import Ambient.Json.Binary64
/-!
# JSON values

## Main definitions

* `Json`: a JSON value. Objects list their members in the order in which their keys first occur.
* `Json.putMember`: the members of an object after one more member was read.
* `Json.member?`: the value under a key of an object.
* `Json.record?`: the fields of a record, written as an object or as an array in field order.
-/

namespace Ambient

/-- A JSON value. Numbers that fit 64 bits are integers, all others are doubles. -/
inductive Json
  | null
  | bool (b : Bool)
  | int (n : Int)
  | float (x : Binary64)
  | str (s : String)
  | arr (items : List Json)
  | obj (members : List (String × Json))

namespace Json

instance : Inhabited Json := ⟨.null⟩

/-- Add a member to an object: a key that is already there keeps its place and takes the new
value. -/
def putMember (key : String) (value : Json) : List (String × Json) → List (String × Json)
  | [] => [(key, value)]
  | (k, v) :: rest =>
    if k = key then (k, value) :: rest else (k, v) :: putMember key value rest

/-- The members of an object read from left to right. -/
def ofMembers (members : List (String × Json)) : Json :=
  .obj (members.foldl (fun acc member => putMember member.1 member.2 acc) [])

/-- The value under a key, if the value is an object that has it. -/
def member? (key : String) : Json → Option Json
  | .obj members => members.lookup key
  | _ => none

/-- The text of a JSON string. -/
def str? : Json → Option String
  | .str s => some s
  | _ => none

/-- The truth value of a JSON boolean. -/
def bool? : Json → Option Bool
  | .bool b => some b
  | _ => none

/-- The items of a JSON array. -/
def arr? : Json → Option (List Json)
  | .arr items => some items
  | _ => none

/-- The members of a JSON object. -/
def obj? : Json → Option (List (String × Json))
  | .obj members => some members
  | _ => none

/-- A list of strings as a JSON array. -/
def ofStrings (texts : List String) : Json :=
  .arr (texts.map .str)

/-- A count as a JSON number. -/
def ofNat (n : Nat) : Json :=
  .int n

/-- A value that may be absent, with `null` for its absence. -/
def ofOption {α : Type} (f : α → Json) : Option α → Json
  | some a => f a
  | none => .null

/-- Decode every item of a list, or none if one does not fit. -/
def decodeAll {α : Type} (decode : Json → Option α) : List Json → Option (List α)
  | [] => some []
  | item :: rest => do
    let a ← decode item
    let as ← decodeAll decode rest
    pure (a :: as)

/-- A JSON array of values of one kind. -/
def listOf? {α : Type} (decode : Json → Option α) : Json → Option (List α)
  | .arr items => decodeAll decode items
  | _ => none

/-- The value of a field that may be absent or `null`. -/
def optional? {α : Type} (decode : Json → Option α) : Option Json → Option (Option α)
  | none => some none
  | some .null => some none
  | some value => (decode value).map some

/-- The value of a field that has a default. -/
def withDefault? {α : Type} (decode : Json → Option α) (default : α) :
    Option Json → Option α
  | none => some default
  | some value => decode value

/-- The fields of a record. An object gives each field under its name; an array gives the fields in
order, and missing last ones are absent. Further array items are refused unless `surplus` allows
them. -/
def record? (names : List String) (surplus : Bool) : Json → Option (String → Option Json)
  | .obj members => some fun name => members.lookup name
  | .arr items =>
    if surplus || items.length ≤ names.length then
      some fun name => (names.zip items).lookup name
    else none
  | _ => none

end Json

end Ambient
