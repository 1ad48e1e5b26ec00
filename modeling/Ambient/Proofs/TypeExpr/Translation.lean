import Ambient.TypeText
/-!
# Translation, form by form

Reading and printing a type expression in one go. The translation of a text that is not replaced is
made from the translations of its parts, in a way that depends on its form.

## Main definitions

* `TypeExpr.Form.tree`: the tree of a form whose parts are read.
* `Config.translation`: the TypeScript text of a raw text.

## Main statements

* `TypeExpr.read_eq`: one step of reading.
* `Config.translation_array`, `Config.translation_generic`, and so on: one step of translating.
-/

namespace Ambient

namespace TypeExpr

/-! ## One step of reading -/

/-- An entry of a record with its type read. -/
def Field.map {σ τ : Type} (f : σ → τ) : Field σ → Field τ
  | .keyed key (some type) => .keyed key (some (f type))
  | .keyed key none => .keyed key none
  | .verbatim text => .verbatim text

theorem Field.map_map {σ τ υ : Type} (f : σ → τ) (g : τ → υ) (field : Field σ) :
    (field.map f).map g = field.map (g ∘ f) := by
  cases field with
  | keyed key type => cases type <;> rfl
  | verbatim text => rfl

/-- An argument with its type read. -/
def Argument.map {σ τ : Type} (f : σ → τ) (argument : Argument σ) : Argument τ where
  type := f argument.type
  isOptional := argument.isOptional
  isRest := argument.isRest

/-- The tree of a text of a given form, with its parts read. -/
def Form.tree (readPart : List Char → TypeExpr) (name : List Char) : Form → TypeExpr
  | .array element => .array (readPart element)
  | .dictionary key value => .dictionary (readPart key) (readPart value)
  | .generic base args => .generic (readPart base) (args.map readPart)
  | .function signature =>
    .function (signature.arguments.map (Argument.map readPart)) (signature.returns.map readPart)
  | .untypedArray => .untypedArray (String.ofList name)
  | .union members => .union (members.map readPart)
  | .group inner => .group (readPart inner)
  | .record fields => .record (fields.map (Field.map readPart))
  | .marked inner => readPart inner
  | .named => .named (String.ofList name)

/-- **One step of reading.** A text that is not replaced is read by its form. -/
theorem read_eq (replacement? : String → Option String) (raw : List Char) :
    read replacement? raw =
      match replacement? (String.ofList (Text.trim raw)) with
      | some text => .replaced text
      | none => (Form.of (Text.trim raw)).tree (read replacement?) (Text.trim raw) := by
  rw [read]
  cases replacement? (String.ofList (Text.trim raw)) with
  | some text => rfl
  | none =>
    simp only
    split <;> rename_i form <;> rw [form] <;> simp only [Form.tree]
    · rw [List.attach_map_val]
    · rename_i signature
      congr 1
      · show signature.arguments.attach.map (fun i => Argument.map (read replacement?) i.val) = _
        rw [List.attach_map_val]
      · cases signature.returns <;> rfl
    · rw [List.attach_map_val]
    · rename_i fields
      congr 1
      refine Eq.trans (List.map_congr_left ?_) List.attach_map_val
      rintro ⟨⟨key, _ | type⟩ | text, _⟩ - <;> rfl

/-! ## Printing lists -/

theorem printAll_eq_map (defaultReturn : String) (types : List TypeExpr) :
    printAll defaultReturn types = types.map (print defaultReturn) := by
  induction types with
  | nil => rfl
  | cons type types ih => rw [printAll, ih, List.map_cons]

theorem printTypes_eq_map (defaultReturn : String) (arguments : List (Argument TypeExpr)) :
    printTypes defaultReturn arguments = arguments.map (Argument.map (print defaultReturn)) := by
  induction arguments with
  | nil => rfl
  | cons argument arguments ih =>
    obtain ⟨type, isOptional, isRest⟩ := argument
    rw [printTypes, ih, List.map_cons]
    rfl

theorem printReturns_eq_map (defaultReturn : String) (returns : Option TypeExpr) :
    printReturns defaultReturn returns = returns.map (print defaultReturn) := by
  cases returns <;> rfl

/-- The text of an entry of a record whose type is printed. -/
def Field.text : Field String → String
  | .keyed key (some type) => key ++ ": " ++ type ++ ";"
  | .keyed key none => key ++ ": any;"
  | .verbatim text => text ++ ";"

theorem printFields_eq_map (defaultReturn : String) (fields : List (Field TypeExpr)) :
    printFields defaultReturn fields =
      fields.map fun field => (field.map (print defaultReturn)).text := by
  induction fields with
  | nil => rfl
  | cons field fields ih =>
    match field with
    | .keyed key (some type) => rw [printFields, ih]; rfl
    | .keyed key none => rw [printFields, ih]; rfl
    | .verbatim text => rw [printFields, ih]; rfl

end TypeExpr

/-! ## One step of translating -/

namespace Config

open TypeExpr

/-- The TypeScript text of a raw text. -/
def translation (c : Config) (raw : List Char) : String :=
  (TypeExpr.read c.replacement? raw).print c.defaultReturnType

theorem text_typeText (c : Config) (raw : String) :
    (c.typeText raw).text = c.translation raw.toList := rfl

theorem text_unionText (c : Config) (raws : List String) :
    (c.unionText raws).text = Text.joinWith "|" (raws.map fun raw => c.translation raw.toList) := by
  rw [unionText, List.map_map]
  rfl

variable {c : Config} {name : List Char}

theorem translation_replaced (bare : Text.trim name = name) {text : String}
    (replaced : c.replacement? (String.ofList name) = some text) : c.translation name = text := by
  unfold translation
  rw [read_eq, bare, replaced]
  rfl

section Unreplaced

variable (bare : Text.trim name = name) (free : c.replacement? (String.ofList name) = none)

include bare free

theorem translation_of_form : c.translation name =
    ((Form.of name).tree (TypeExpr.read c.replacement?) name).print c.defaultReturnType := by
  unfold translation
  rw [read_eq, bare, free]

theorem translation_array {element : List Char} (form : Form.of name = .array element) :
    c.translation name = c.translation element ++ "[]" := by
  rw [translation_of_form bare free, form]
  rfl

theorem translation_dictionary {key value : List Char}
    (form : Form.of name = .dictionary key value) :
    c.translation name =
      "\x7b [key: " ++ c.translation key ++ "]: " ++ c.translation value ++ "; \x7d" := by
  rw [translation_of_form bare free, form]
  rfl

theorem translation_generic {base : List Char} {args : List (List Char)}
    (form : Form.of name = .generic base args) :
    c.translation name =
      c.translation base ++ "<" ++ Text.joinWith ", " (args.map c.translation) ++ ">" := by
  rw [translation_of_form bare free, form]
  simp only [Form.tree, print]
  rw [printAll_eq_map, List.map_map]
  rfl

theorem translation_function {signature : Signature (List Char)}
    (form : Form.of name = .function signature) :
    c.translation name =
      Signature.print ⟨signature.arguments.map (TypeExpr.Argument.map c.translation),
        signature.returns.map c.translation⟩ c.defaultReturnType := by
  rw [translation_of_form bare free, form]
  simp only [Form.tree, print]
  rw [printTypes_eq_map, printReturns_eq_map, List.map_map, Option.map_map]
  rfl

theorem translation_union {members : List (List Char)} (form : Form.of name = .union members) :
    c.translation name = Text.joinWith "|" (members.map c.translation) := by
  rw [translation_of_form bare free, form]
  simp only [Form.tree, print]
  rw [printAll_eq_map, List.map_map]
  rfl

theorem translation_group {inner : List Char} (form : Form.of name = .group inner) :
    c.translation name = "(" ++ c.translation inner ++ ")" := by
  rw [translation_of_form bare free, form]
  rfl

theorem translation_record {field : TypeExpr.Field (List Char)}
    {fields : List (TypeExpr.Field (List Char))} (form : Form.of name = .record (field :: fields)) :
    c.translation name =
      "\x7b " ++ Text.joinWith " " ((field :: fields).map fun field =>
        (field.map c.translation).text) ++ " \x7d" := by
  have printed : printFields c.defaultReturnType
      ((field :: fields).map (TypeExpr.Field.map (TypeExpr.read c.replacement?))) =
        (field :: fields).map fun field => (field.map c.translation).text := by
    rw [printFields_eq_map, List.map_map]
    exact List.map_congr_left fun field _ => congrArg Field.text (Field.map_map _ _ field)
  rw [translation_of_form bare free, form, ← printed]
  rfl

theorem translation_record_nil (form : Form.of name = .record []) :
    c.translation name = "\x7b\x7d" := by
  rw [translation_of_form bare free, form]
  rfl

theorem translation_untypedArray (form : Form.of name = .untypedArray) :
    c.translation name = "any[]" := by
  rw [translation_of_form bare free, form]
  rfl

theorem translation_marked {inner : List Char} (form : Form.of name = .marked inner) :
    c.translation name = c.translation inner := by
  rw [translation_of_form bare free, form]
  rfl

theorem translation_named (form : Form.of name = .named) :
    c.translation name = String.ofList name := by
  rw [translation_of_form bare free, form]
  rfl

end Unreplaced

end Config

end Ambient
