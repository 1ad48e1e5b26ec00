import Ambient.TypeExpr.Bracket
import Ambient.Text.Search
import Ambient.Text.Word
/-!
# Function signatures in type expressions

`function(A, B=, ...C): R` lists the types of the arguments and perhaps a return type. An argument
may be marked as optional with `?` or `=` and as taking all further arguments with `...`.

## Main definitions

* `TypeExpr.Argument`, `TypeExpr.Signature`: arguments and return type; the types themselves may be
  raw texts, trees or printed types.
* `TypeExpr.withoutOptionalMark`: a type without its mark of optionality.
* `TypeExpr.Argument.read`, `TypeExpr.Signature.read?`: read the raw texts.
* `TypeExpr.Signature.print`: the TypeScript function type, with arguments named by position.
-/

namespace Ambient.TypeExpr

/-- One argument of a function type. -/
structure Argument (τ : Type) where
  type : τ
  /-- Marked as one that may be left out. -/
  isOptional : Bool
  /-- Marked as taking all further arguments. -/
  isRest : Bool
  deriving DecidableEq, Repr

/-- The arguments of a function type and its return type, if it names one. -/
structure Signature (τ : Type) where
  arguments : List (Argument τ)
  returns : Option τ
  deriving DecidableEq, Repr

/-- Whether a text has at least two bytes in UTF-8: two characters, or one outside of ASCII. -/
def hasTwoBytes : List Char → Bool
  | [] => false
  | [c] => c.toNat ≥ 128
  | _ :: _ :: _ => true

/-- A type without its mark of optionality, and whether it had one. -/
def withoutOptionalMark (text : List Char) : List Char × Bool :=
  let bare := Text.trim text
  if !hasTwoBytes bare then (bare, false)
  else
    match Text.dropStart? ['?'] bare with
    | some rest => (Text.trim rest, true)
    | none =>
      match Text.dropFinish? ['='] bare with
      | some rest => (Text.trim rest, true)
      | none => (bare, false)

/-- Whether an argument entry binds a name such as `this` or `new` and stands for no argument. -/
def bindsContext (entry : List Char) : Bool :=
  let name := Text.trimStart entry
  let rest := Text.trimStart (name.dropWhile Text.isNameChar)
  !(name.takeWhile Text.isNameChar).isEmpty && (Text.dropStart? [':'] rest).isSome

/-- A type without the mark of a rest argument, and whether it had one. -/
def withoutRestMark (text : List Char) : List Char × Bool :=
  let bare := Text.trim text
  match Text.dropStart? ['.', '.', '.'] bare with
  | some rest => (Text.trim rest, true)
  | none => (bare, false)

/-- Read one argument. A mark of optionality on any alternative makes the argument optional. -/
def Argument.read (entry : List Char) : Argument (List Char) :=
  let unmarked := withoutOptionalMark (withoutRestMark entry).1
  { type := unmarked.1
    isOptional := unmarked.2 ||
      (splitOutside '|' unmarked.1).any fun member => (withoutOptionalMark member).2
    isRest := (withoutRestMark entry).2 }

/-- Read the arguments between the parentheses of a function type. -/
def readArguments (text : List Char) : List (Argument (List Char)) :=
  ((splitOutside ',' text).filter fun entry => !bindsContext entry).map Argument.read

/-- The return type in the text after the closing parenthesis: `some none` if there is none, `none`
if the text is no return type. -/
def readReturns? (text : List Char) : Option (Option (List Char)) :=
  match Text.trim text with
  | [] => some none
  | c :: rest =>
    if c ≠ ':' then none
    else
      match Text.trim rest with
      | [] => none
      | type => some (some type)

/-- Read a function type: the word `function`, arguments in parentheses and perhaps a return
type. -/
def Signature.read? (name : List Char) : Option (Signature (List Char)) := do
  let rest ← Text.dropStart? "function".toList name
  match Text.trimStart rest with
  | '(' :: rest =>
    let (inside, after) ← untilClose? 0 '(' rest
    let returns ← readReturns? after
    pure { arguments := readArguments inside, returns }
  | _ => none

/-- The entries of a function type from a position on, given whether an earlier argument was
optional. From the first optional argument on, every argument but a rest argument is optional. -/
def printArguments (index : Nat) (afterOptional : Bool) : List (Argument String) → List String
  | [] => []
  | argument :: rest =>
    let name := "arg" ++ toString index
    if argument.isRest then
      ("..." ++ name ++ ": " ++ argument.type ++ "[]") ::
        printArguments (index + 1) afterOptional rest
    else
      let optional := afterOptional || argument.isOptional
      (name ++ (if optional then "?" else "") ++ ": " ++ argument.type) ::
        printArguments (index + 1) optional rest

/-- The TypeScript function type. Without a return type the default stands in. -/
def Signature.print (signature : Signature String) (defaultReturn : String) : String :=
  "(" ++ Text.joinWith ", " (printArguments 0 false signature.arguments) ++ ") => " ++
    signature.returns.getD defaultReturn

/-! ## Lengths -/

theorem length_dropStart? {pattern text rest : List Char}
    (h : Text.dropStart? pattern text = some rest) :
    rest.length + pattern.length = text.length := by
  induction pattern generalizing text with
  | nil => simp [Text.dropStart?] at h; simp [h]
  | cons p pattern ih =>
    cases text with
    | nil => simp [Text.dropStart?] at h
    | cons c text =>
      simp only [Text.dropStart?] at h
      split at h
      · have shorter := ih h
        simp only [List.length_cons]; omega
      · simp at h

theorem length_dropFinish? {pattern text rest : List Char}
    (h : Text.dropFinish? pattern text = some rest) :
    rest.length + pattern.length = text.length := by
  obtain ⟨reversed, found, rfl⟩ := Option.map_eq_some_iff.1 h
  simpa using length_dropStart? found

theorem length_withoutOptionalMark_le (text : List Char) :
    (withoutOptionalMark text).1.length ≤ text.length := by
  have trimmed := Text.length_trim_le text
  unfold withoutOptionalMark
  simp only
  split
  · exact trimmed
  · split
    · rename_i rest found
      have shorter := length_dropStart? found
      have inner := Text.length_trim_le rest
      simp only; omega
    · split
      · rename_i rest found
        have shorter := length_dropFinish? found
        have inner := Text.length_trim_le rest
        simp only; omega
      · exact trimmed

theorem length_withoutRestMark_le (text : List Char) :
    (withoutRestMark text).1.length ≤ text.length := by
  have trimmed := Text.length_trim_le text
  unfold withoutRestMark
  simp only
  split
  · rename_i rest found
    have shorter := length_dropStart? found
    have inner := Text.length_trim_le rest
    simp only; omega
  · exact trimmed

/-- The type of an argument is no longer than its entry. -/
theorem length_type_read_le (entry : List Char) :
    (Argument.read entry).type.length ≤ entry.length :=
  Nat.le_trans (length_withoutOptionalMark_le _) (length_withoutRestMark_le entry)

theorem length_of_readReturns? {text type : List Char}
    (h : readReturns? text = some (some type)) : type.length < text.length := by
  have trimmed := Text.length_trim_le text
  unfold readReturns? at h
  split at h
  · simp at h
  · rename_i c rest bare
    rw [bare] at trimmed
    have inner := Text.length_trim_le rest
    split at h
    · simp at h
    · split at h
      · simp at h
      · simp only [Option.some.injEq] at h
        subst h
        simp only [List.length_cons] at trimmed; omega

/-- All texts of a function type are shorter than the whole. -/
theorem Signature.length_of_read? {name : List Char} {signature : Signature (List Char)}
    (h : Signature.read? name = some signature) :
    (∀ argument ∈ signature.arguments, argument.type.length < name.length) ∧
      ∀ type, signature.returns = some type → type.length < name.length := by
  unfold Signature.read? at h
  simp only [Option.bind_eq_bind, Option.bind_eq_some_iff] at h
  obtain ⟨rest, start, h⟩ := h
  have afterWord := length_dropStart? start
  have afterBlank := Text.length_trimStart_le rest
  split at h
  · rename_i text bare
    rw [bare] at afterBlank
    simp only [Option.bind_eq_some_iff] at h
    obtain ⟨⟨inside, after⟩, close, returns, found, same⟩ := h
    simp only [Option.pure_def, Option.some.injEq] at same
    subst same
    have parts := length_untilClose? close
    simp only [List.length_cons] at afterBlank
    constructor
    · intro argument mem
      simp only [readArguments, List.mem_map, List.mem_filter] at mem
      obtain ⟨entry, ⟨mem, _⟩, rfl⟩ := mem
      have inPiece := length_type_read_le entry
      have inText := length_le_of_mem_splitOutside mem
      omega
    · rintro type rfl
      have shorter := length_of_readReturns? found
      simp only at shorter
      omega
  · simp at h

end Ambient.TypeExpr
