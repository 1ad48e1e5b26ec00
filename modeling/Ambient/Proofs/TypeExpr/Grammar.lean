import Ambient.Config.Basic
import Ambient.Proofs.TypeExpr.Names
import Mathlib.Data.List.Forall2
/-!
# The grammar of documented types

The types that people write in documentation comments, as trees, with the texts that spell them and
with the TypeScript types that they stand for. Nothing here looks at patterns or at their order: the
spelling of a tree is put together from the spellings of its parts, and so is its rendering.

## Main definitions

* `DocType`: the trees.
* `DocType.Spells`: a text spells a tree. Dots in front of `<` and spaces around separators are
  optional, so a tree has many spellings.
* `DocType.render`: the TypeScript type of a tree.

## Design notes

A union is not a member of a union, not marked by `?` or `!` and not a return type: each of these
would need parentheses, and those are a tree of their own.
-/

namespace Ambient

open TypeExpr

/-! ## Trees -/

/-- A type as it is documented. -/
inductive DocType
  | name (text : List Char)
  /-- `*`. -/
  | anything
  /-- `Array.<T>`. -/
  | array (element : DocType)
  /-- `T[]`. -/
  | list (element : DocType)
  /-- `Object.<K, V>`. -/
  | dictionary (key value : DocType)
  /-- `Base.<A, B>`. -/
  | generic (base : List Char) (args : List DocType)
  /-- `function(A, B=, ...C): R`. An argument is optional here if it has an equals sign. -/
  | function (arguments : List (TypeExpr.Argument DocType)) (returns : Option DocType)
  /-- `A|B`. -/
  | union (members : List DocType)
  /-- `(T)`. -/
  | group (inner : DocType)
  /-- A record in braces. -/
  | record (fields : List (List Char × DocType))
  /-- `?T`. -/
  | optional (inner : DocType)
  /-- `!T`. -/
  | required (inner : DocType)

namespace DocType

/-- Whether the tree is a union. -/
def isUnion : DocType → Bool
  | .union _ => true
  | _ => false

/-- Whether the tree is marked by `?`. -/
def isOptional : DocType → Bool
  | .optional _ => true
  | _ => false

/-- Whether `[]` may stand behind the tree. -/
def takesBrackets : DocType → Bool
  | .name _ | .array _ | .list _ | .dictionary .. | .generic .. | .group _ | .record _ => true
  | .anything | .function .. | .union _ | .optional _ | .required _ => false

/-- Whether the tree, or a member of the union that it is, is marked by `?`. -/
def admitsMissing : DocType → Bool
  | .optional _ => true
  | .union members => members.any isOptional
  | _ => false

/-! ## Spellings -/

/-- The optional dot in front of `<`. -/
def dot (dotted : Bool) : List Char :=
  if dotted then ['.'] else []

/-- The mark of a rest argument. -/
def restMark (isRest : Bool) : List Char :=
  if isRest then ['.', '.', '.'] else []

/-- The mark behind an optional argument. -/
def optionalMark (isOptional : Bool) : List Char :=
  if isOptional then ['='] else []

/-- Pieces joined by commas, or nothing. -/
inductive Listed : List (List Char) → List Char → Prop
  | nil : Listed [] []
  | joined {pieces : List (List Char)} {s : List Char} (h : Joined ',' pieces s) : Listed pieces s

theorem Listed.length_le {pieces : List (List Char)} {s : List Char} (h : Listed pieces s) :
    ∀ piece ∈ pieces, piece.length ≤ s.length := by
  cases h with
  | nil => exact fun piece mem => absurd mem List.not_mem_nil
  | joined h => exact h.length_le

theorem Listed.length_lt_wrapped {pieces : List (List Char)} {s : List Char} (h : Listed pieces s)
    (before after : List Char) (o k : Char) :
    ∀ piece ∈ pieces, piece.length < (before ++ o :: (s ++ k :: after)).length :=
  fun piece mem =>
    Nat.lt_of_le_of_lt (h.length_le piece mem) (TypeExpr.length_lt_wrapped before s after o k)

/-- Listed nested pieces are nested. -/
theorem Listed.nested {pieces : List (List Char)} {s : List Char} (h : Listed pieces s)
    (each : ∀ piece ∈ pieces, Nested (· ≠ ',') piece) : Nested (fun _ => True) s := by
  cases h with
  | nil => exact .nil
  | joined h => exact h.nested (fun piece mem => (each piece mem).anywhere) trivial trivial rfl rfl

/-- Splitting undoes listing. -/
theorem Listed.splitOutside_eq {pieces : List (List Char)} {s : List Char} (h : Listed pieces s)
    (each : ∀ piece ∈ pieces, Nested (· ≠ ',') piece)
    (tight : ∀ piece ∈ pieces, Text.Tight piece) : splitOutside ',' s = pieces := by
  cases h with
  | nil => rfl
  | joined h => exact h.splitOutside_eq each tight rfl rfl (by decide)

/-- Listing brings in nothing but commas and spaces. -/
theorem Listed.not_mem {pieces : List (List Char)} {s : List Char} (h : Listed pieces s) {c : Char}
    (each : ∀ piece ∈ pieces, c ∉ piece) (noSpace : c ≠ ' ') (noComma : c ≠ ',') : c ∉ s := by
  cases h with
  | nil => exact List.not_mem_nil
  | joined h => exact h.not_mem each noSpace noComma

mutual

/-- A text spells a tree. -/
inductive Spells : DocType → List Char → Prop
  | name {s : List Char} (isName : IsName s) : Spells (.name s) s
  | anything : Spells .anything ['*']
  | array {t : DocType} {s : List Char} (dotted : Bool) (element : Spells t s) :
      Spells (.array t) ("Array".toList ++ dot dotted ++ '<' :: (s ++ ['>']))
  | list {t : DocType} {s : List Char} (fits : t.takesBrackets = true) (element : Spells t s) :
      Spells (.list t) (s ++ ['[', ']'])
  | dictionary {key value : DocType} {k v s : List Char} (dotted : Bool) (spelledKey : Spells key k)
      (spelledValue : Spells value v) (joined : Joined ',' [k, v] s) :
      Spells (.dictionary key value) ("Object".toList ++ dot dotted ++ '<' :: (s ++ ['>']))
  | generic {base : List Char} {args : List DocType} {pieces : List (List Char)} {s : List Char}
      (dotted : Bool) (isName : IsName base) (noObject : base ≠ "Object".toList)
      (each : List.Forall₂ Spells args pieces) (joined : Joined ',' pieces s) :
      Spells (.generic base args) (base ++ dot dotted ++ '<' :: (s ++ ['>']))
  | procedure {arguments : List (TypeExpr.Argument DocType)} {pieces : List (List Char)} {s : List Char}
      (each : List.Forall₂ SpellsArgument arguments pieces) (listed : Listed pieces s) :
      Spells (.function arguments none) ("function".toList ++ '(' :: (s ++ [')']))
  | function {arguments : List (TypeExpr.Argument DocType)} {pieces : List (List Char)} {s : List Char}
      {t : DocType} {r : List Char} (before after : Nat)
      (each : List.Forall₂ SpellsArgument arguments pieces) (listed : Listed pieces s)
      (noUnion : t.isUnion = false) (returns : Spells t r) :
      Spells (.function arguments (some t))
        ("function".toList ++ '(' :: (s ++ ')' :: (Text.pad before ++ ':' :: (Text.pad after ++ r))))
  | union {members : List DocType} {pieces : List (List Char)} {s : List Char}
      (several : 2 ≤ members.length) (noUnion : ∀ t ∈ members, t.isUnion = false)
      (each : List.Forall₂ Spells members pieces) (joined : Joined '|' pieces s) :
      Spells (.union members) s
  | group {t : DocType} {s : List Char} (inner : Spells t s) :
      Spells (.group t) ('(' :: (s ++ [')']))
  | record {fields : List (List Char × DocType)} {pieces : List (List Char)} {s : List Char}
      (each : List.Forall₂ SpellsField fields pieces) (joined : Joined ',' pieces s) :
      Spells (.record fields) ('\x7b' :: (s ++ ['\x7d']))
  | optional {t : DocType} {s : List Char} (noUnion : t.isUnion = false) (inner : Spells t s) :
      Spells (.optional t) ('?' :: s)
  | required {t : DocType} {s : List Char} (noUnion : t.isUnion = false) (inner : Spells t s) :
      Spells (.required t) ('!' :: s)

/-- A text spells an argument of a function type. -/
inductive SpellsArgument : TypeExpr.Argument DocType → List Char → Prop
  | mk {argument : TypeExpr.Argument DocType} {s : List Char} (type : Spells argument.type s) :
      SpellsArgument argument
        (restMark argument.isRest ++ (s ++ optionalMark argument.isOptional))

/-- A text spells an entry of a record. -/
inductive SpellsField : List Char × DocType → List Char → Prop
  | mk {key : List Char} {t : DocType} {s : List Char} (before after : Nat)
      (identifier : IsAsciiIdentifier key) (type : Spells t s) :
      SpellsField (key, t) (key ++ Text.pad before ++ ':' :: (Text.pad after ++ s))

end

/-! ## Function types -/

section FunctionTypes

variable {r : List Char} (s : List Char) (before after : Nat)

/-- What stands behind a function type stands behind its parentheses. -/
theorem call_append (tail more : List Char) :
    "function".toList ++ '(' :: (s ++ ')' :: tail) ++ more =
      "function".toList ++ '(' :: (s ++ ')' :: (tail ++ more)) := by
  simp

/-- What stands behind a function type with a return type stands behind the return type. -/
theorem returns_append (more : List Char) :
    "function".toList ++ '(' :: (s ++ ')' :: (Text.pad before ++ ':' :: (Text.pad after ++ r))) ++
        more =
      "function".toList ++
        '(' :: (s ++ ')' :: (Text.pad before ++ ':' :: (Text.pad after ++ (r ++ more)))) := by
  rw [call_append, List.append_assoc, List.cons_append, List.append_assoc]

/-- A function type ends like its return type. -/
theorem getLast?_returns (tight : Text.Tight r) :
    ("function".toList ++
        '(' :: (s ++ ')' :: (Text.pad before ++ ':' :: (Text.pad after ++ r)))).getLast? =
      r.getLast? := by
  obtain ⟨c, last, -⟩ := tight.last
  have front := Text.getLast?_spaced last
    ("function".toList ++ '(' :: (s ++ ')' :: Text.pad before)) ':' after
  rw [last, ← front]
  simp

end FunctionTypes

/-! ## Renderings -/

/-- The replacement of a name, or the name itself. -/
def nameText (c : Config) (name : List Char) : String :=
  (c.replacement? (String.ofList name)).getD (String.ofList name)

mutual

/-- The TypeScript type of a tree. -/
def render (c : Config) : DocType → String
  | .name text => nameText c text
  | .anything => nameText c ['*']
  | .array element => render c element ++ "[]"
  | .list element => render c element ++ "[]"
  | .dictionary key value => "\x7b [key: " ++ render c key ++ "]: " ++ render c value ++ "; \x7d"
  | .generic base args =>
    nameText c base ++ "<" ++ Text.joinWith ", " (renderAll c args) ++ ">"
  | .function arguments returns =>
    "(" ++ Text.joinWith ", " (renderArguments c 0 false arguments) ++ ") => " ++
      renderReturns c returns
  | .union members => Text.joinWith "|" (renderAll c members)
  | .group inner => "(" ++ render c inner ++ ")"
  | .record fields => "\x7b " ++ Text.joinWith " " (renderFields c fields) ++ " \x7d"
  | .optional inner => render c inner
  | .required inner => render c inner

/-- The TypeScript types of some trees. -/
def renderAll (c : Config) : List DocType → List String
  | [] => []
  | t :: rest => render c t :: renderAll c rest

/-- The arguments of a function type from a position on, given whether an earlier argument was
optional. A rest argument takes no question mark, and none follows from it. -/
def renderArguments (c : Config) (index : Nat) (afterOptional : Bool) :
    List (TypeExpr.Argument DocType) → List String
  | [] => []
  | ⟨t, marked, isRest⟩ :: rest =>
    if isRest then
      ("...arg" ++ toString index ++ ": " ++ render c t ++ "[]") ::
        renderArguments c (index + 1) afterOptional rest
    else
      let isOptional := afterOptional || marked || t.admitsMissing
      ("arg" ++ toString index ++ (if isOptional then "?" else "") ++ ": " ++ render c t) ::
        renderArguments c (index + 1) isOptional rest

/-- The return type of a function type, the default if it names none. -/
def renderReturns (c : Config) : Option DocType → String
  | some t => render c t
  | none => c.defaultReturnType

/-- The entries of a record. -/
def renderFields (c : Config) : List (List Char × DocType) → List String
  | [] => []
  | (key, t) :: rest => (String.ofList key ++ ": " ++ render c t ++ ";") :: renderFields c rest

end

theorem renderAll_eq_map (c : Config) (types : List DocType) :
    renderAll c types = types.map (render c) := by
  induction types with
  | nil => rfl
  | cons t rest ih => rw [renderAll, ih, List.map_cons]

end DocType

end Ambient
