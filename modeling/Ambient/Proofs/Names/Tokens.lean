import Mathlib.Data.Nat.Digits.Defs
import Ambient.Json.Lexical
import Ambient.Text.Word
/-!
# Names in declaration files

A name stands in a declaration file as an identifier or as a string literal. This is the lexical
grammar of the two, with what a token denotes: the characters that an identifier spells, and the
code units that a literal reads as. Which characters beyond ASCII belong to identifiers depends on
the version of a table, so the grammar has the table as a parameter.

## Main definitions

* `Token.Alphabet`: the characters of identifiers, and `Token.Alphabet.words` as one of them.
* `Token.Spells`: a text is an identifier, or a reserved word, that spells some characters.
* `Token.IsIdentifier`: a text is an identifier.
* `Token.Reads`: a text between two quotes reads as some code units.
* `Token.IsLiteral`: a text is a string literal in double quotes.

## Main statements

* `Token.Spells.eq_of_not_mem`: an identifier without escapes spells itself.
* `Token.reads_self_iff`: a text between quotes reads as itself exactly if nothing in it has to be
  escaped.
-/

namespace Ambient.Token

/-! ## Escapes -/

/-- The value of a hexadecimal number. -/
def hexNumber? (digits : List Char) : Option Nat :=
  (digits.mapM Json.hexValue?).map fun values => Nat.ofDigits 16 values.reverse

/-- The code units of a code point in UTF-16: one, or two for a code point beyond the first
plane. -/
def unitsOf (point : Nat) : List Nat :=
  if point < 0x10000 then [point]
  else [0xD800 + (point - 0x10000) / 0x400, 0xDC00 + (point - 0x10000) % 0x400]

/-- The code units of a text. -/
def units (text : List Char) : List Nat := text.flatMap fun c => unitsOf c.toNat

/-- An escape for a code point, from behind its backslash. -/
inductive PointEscape : List Char → Nat → Prop
  | four {a b c d : Char} {point : Nat} (value : hexNumber? [a, b, c, d] = some point) :
    PointEscape ['u', a, b, c, d] point
  | braced {digits : List Char} {point : Nat} (filled : digits ≠ [])
    (value : hexNumber? digits = some point) (small : point ≤ 0x10FFFF) :
    PointEscape (['u', '\x7b'] ++ digits ++ ['\x7d']) point

/-- The characters at which a line ends. -/
def lineEnds : List Char := ['\n', '\r', '\u2028', '\u2029']

/-- The letters of escapes that stand for control characters. -/
def controls : List (Char × Nat) := [('b', 8), ('t', 9), ('n', 10), ('v', 11), ('f', 12), ('r', 13)]

/-- What an escape in a string literal stands for, from behind its backslash. -/
inductive Escape : List Char → List Nat → Prop
  | control {c : Char} {unit : Nat} (known : (c, unit) ∈ controls) : Escape [c] [unit]
  | zero : Escape ['0'] [0]
  | byte {a b : Char} {unit : Nat} (value : hexNumber? [a, b] = some unit) :
    Escape ['x', a, b] [unit]
  | point {text : List Char} {point : Nat} (escape : PointEscape text point) :
    Escape text (unitsOf point)
  /-- A line goes on behind its end, which stands for nothing. -/
  | lineEnd {c : Char} (ends : c ∈ lineEnds) : Escape [c] []
  | returnAndFeed : Escape ['\r', '\n'] []
  /-- Any other character stands for itself. -/
  | itself {c : Char} (noControl : ∀ unit, (c, unit) ∉ controls) (noDigit : c.isDigit = false)
    (noLetter : c ≠ 'x' ∧ c ≠ 'u') (noEnd : c ∉ lineEnds) : Escape [c] (unitsOf c.toNat)

/-! ## Identifiers -/

/-- The characters that an identifier may start with, and those that may follow. Below 128 they are
letters, digits, `_` and `$`. -/
structure Alphabet where
  isStart : Char → Bool
  isPart : Char → Bool
  isStart_ascii : ∀ c : Char, c.toNat < 128 → isStart c = (c.isAlpha || c == '_' || c == '$')
  isPart_ascii : ∀ c : Char, c.toNat < 128 → isPart c = (c.isAlphanum || c == '_' || c == '$')

/-- The word characters as an alphabet. -/
def Alphabet.words : Alphabet where
  isStart := Text.isNameStart
  isPart := Text.isNameChar
  isStart_ascii _ _ := rfl
  isPart_ascii c ascii := by rw [Text.isNameChar, Text.isWord, if_pos ascii]

/-- A character of some class in an identifier, as it is or escaped. -/
inductive Letter (isIn : Char → Bool) : List Char → Char → Prop
  | plain {c : Char} (known : isIn c = true) : Letter isIn [c] c
  | escaped {text : List Char} {c : Char} (escape : PointEscape text c.toNat)
    (known : isIn c = true) : Letter isIn ('\\' :: text) c

/-- A text spells some characters as an identifier, or as a word that is reserved. -/
inductive Spells (L : Alphabet) : List Char → List Char → Prop
  | first {text : List Char} {c : Char} (letter : Letter L.isStart text c) : Spells L text [c]
  | next {text last name : List Char} {c : Char} (before : Spells L text name)
    (letter : Letter L.isPart last c) : Spells L (text ++ last) (name ++ [c])

/-- The words that cannot name anything. -/
def reservedWords : List String :=
  ["break", "case", "catch", "class", "const", "continue", "debugger", "default", "delete", "do",
    "else", "enum", "export", "extends", "false", "finally", "for", "function", "if", "import",
    "in", "instanceof", "new", "null", "return", "super", "switch", "this", "throw", "true", "try",
    "typeof", "var", "void", "while", "with"]

/-- An identifier: it spells something, and no reserved word. -/
def IsIdentifier (L : Alphabet) (text : String) : Prop :=
  ∃ name, Spells L text.toList name ∧ String.ofList name ∉ reservedWords

/-! ## String literals -/

/-- A character that stands for itself between quotes. -/
def IsPlain (c : Char) : Prop := c ≠ '"' ∧ c ≠ '\\' ∧ c ≠ '\n' ∧ c ≠ '\r'

instance (c : Char) : Decidable (IsPlain c) := inferInstanceAs (Decidable (_ ∧ _ ∧ _ ∧ _))

/-- A text between quotes reads as some code units. No digit follows the escape for zero. -/
inductive Reads : List Char → List Nat → Prop
  | nil : Reads [] []
  | plain {c : Char} {text : List Char} {content : List Nat} (isPlain : IsPlain c)
    (later : Reads text content) : Reads (c :: text) (unitsOf c.toNat ++ content)
  | escape {text rest : List Char} {meant content : List Nat} (escape : Escape text meant)
    (noOctal : text = ['0'] → ∀ d ∈ rest.head?, d.isDigit = false) (later : Reads rest content) :
    Reads ('\\' :: text ++ rest) (meant ++ content)

/-- A text in double quotes. -/
def quoted (text : List Char) : List Char := '"' :: (text ++ ['"'])

/-- A string literal in double quotes that reads as some code units. -/
def ReadsAs (literal : List Char) (content : List Nat) : Prop :=
  ∃ body, literal = quoted body ∧ Reads body content

/-- A string literal in double quotes. -/
def IsLiteral (text : String) : Prop := ∃ content, ReadsAs text.toList content

/-! ## Identifiers without escapes -/

section Identifiers

variable {L : Alphabet} {text name : List Char} {c : Char}

/-- An identifier without escapes spells itself. -/
theorem Spells.eq_of_not_mem (h : Spells L text name) (bare : '\\' ∉ text) : text = name := by
  induction h with
  | first letter =>
    cases letter with
    | plain known => rfl
    | escaped escape known => exact absurd List.mem_cons_self bare
  | next before letter ih =>
    rw [List.mem_append, not_or] at bare
    cases letter with
    | plain known => rw [ih bare.1]
    | escaped escape known => exact absurd List.mem_cons_self bare.2

/-- What an identifier spells is made of letters. -/
theorem Spells.isStart_or_isPart (h : Spells L text name) :
    ∀ c ∈ name, L.isStart c = true ∨ L.isPart c = true := by
  have letter : ∀ {isIn : Char → Bool} {part : List Char} {c : Char},
      Letter isIn part c → isIn c = true := by
    intro isIn part c letter
    cases letter with
    | plain known => exact known
    | escaped escape known => exact known
  induction h with
  | first start =>
    rw [List.forall_mem_singleton]
    exact Or.inl (letter start)
  | next before part ih =>
    rw [List.forall_mem_append, List.forall_mem_singleton]
    exact ⟨ih, Or.inr (letter part)⟩

/-- A text without escapes that has a character of no class is no identifier. -/
theorem not_spells (bare : '\\' ∉ text) (mem : c ∈ text) (noStart : L.isStart c = false)
    (noPart : L.isPart c = false) : ¬ Spells L text name := by
  intro spelled
  have same := spelled.eq_of_not_mem bare
  rcases spelled.isStart_or_isPart c (same ▸ mem) with known | known
  · exact Bool.false_ne_true (noStart.symm.trans known)
  · exact Bool.false_ne_true (noPart.symm.trans known)

/-- A text with a dash and without escapes is no identifier. -/
theorem not_spells_dash (bare : '\\' ∉ text) (dash : '-' ∈ text) : ¬ Spells L text name :=
  not_spells bare dash (L.isStart_ascii '-' (by decide)) (L.isPart_ascii '-' (by decide))

theorem Spells.ne_nil (h : Spells L text name) : text ≠ [] := by
  induction h with
  | first letter => cases letter <;> exact List.cons_ne_nil _ _
  | next before letter ih => exact List.append_ne_nil_of_left_ne_nil ih _

/-- No identifier starts with a quote. -/
theorem not_spells_quote (L : Alphabet) (text name : List Char) :
    ¬ Spells L ('"' :: text) name := by
  have noStart : L.isStart '"' = false := L.isStart_ascii '"' (by decide)
  intro spelled
  generalize whole : '"' :: text = token at spelled
  induction spelled generalizing text with
  | first letter =>
    cases letter with
    | plain known =>
      obtain ⟨rfl, -⟩ := List.cons.inj whole
      exact Bool.false_ne_true (noStart.symm.trans known)
    | escaped escape known => exact absurd (List.cons.inj whole).1 (by decide)
  | @next front last name c before letter ih =>
    cases front with
    | nil => exact absurd rfl before.ne_nil
    | cons d front =>
      obtain ⟨rfl, -⟩ := List.cons.inj whole
      exact ih front rfl

end Identifiers

/-! ## Literals without escapes -/

section Literals

variable {text literal : List Char} {content meant : List Nat}

theorem length_unitsOf_pos (point : Nat) : 0 < (unitsOf point).length := by
  unfold unitsOf
  split <;> simp

@[simp] theorem units_cons (c : Char) (text : List Char) :
    units (c :: text) = unitsOf c.toNat ++ units text := List.flatMap_cons

@[simp] theorem units_append (text rest : List Char) :
    units (text ++ rest) = units text ++ units rest := List.flatMap_append

theorem length_le_units (text : List Char) : text.length ≤ (units text).length := by
  induction text with
  | nil => exact Nat.le_refl 0
  | cons c text ih =>
    have here := length_unitsOf_pos c.toNat
    rw [units_cons, List.length_append, List.length_cons]
    omega

/-- An escape is at least as long as what it stands for, even without its backslash. -/
theorem Escape.length_le (h : Escape text meant) : meant.length ≤ (units text).length := by
  have short : ∀ point, (unitsOf point).length ≤ 2 := by
    intro point
    unfold unitsOf
    split <;> simp
  have filled : ∀ {text : List Char}, text ≠ [] → 1 ≤ (units text).length := fun {text} filled =>
    le_trans (List.length_pos_iff.2 filled) (length_le_units text)
  cases h with
  | control known => exact filled (List.cons_ne_nil _ _)
  | zero => exact filled (List.cons_ne_nil _ _)
  | byte value => exact filled (List.cons_ne_nil _ _)
  | point escape =>
    refine (short _).trans (le_trans ?_ (length_le_units text))
    cases escape with
    | four value => simp
    | braced filled value small => simp
  | lineEnd ends => exact Nat.zero_le _
  | returnAndFeed => exact Nat.zero_le _
  | itself => simp [units]

/-- A text between quotes reads as no more than it has itself, and as less if it has an escape. -/
theorem Reads.length_le (h : Reads text content) :
    content.length ≤ (units text).length ∧
      (content.length = (units text).length → ∀ c ∈ text, IsPlain c) := by
  induction h with
  | nil => exact ⟨Nat.le_refl 0, fun _ _ mem => nomatch mem⟩
  | @plain c text content isPlain later ih =>
    rw [units_cons, List.length_append, List.length_append, List.forall_mem_cons]
    exact ⟨Nat.add_le_add_left ih.1 _, fun full => ⟨isPlain, ih.2 (Nat.add_left_cancel full)⟩⟩
  | @escape text rest meant content escape noOctal later ih =>
    have parts : (units ('\\' :: text ++ rest)).length =
        1 + (units text).length + (units rest).length := by
      simp only [List.cons_append, units_cons, units_append, List.length_append, ← Nat.add_assoc]
      rfl
    have shorter : (meant ++ content).length < (units ('\\' :: text ++ rest)).length := by
      have here := escape.length_le
      rw [parts, List.length_append]
      omega
    exact ⟨Nat.le_of_lt shorter, fun full => absurd full (Nat.ne_of_lt shorter)⟩

/-- **A text between quotes reads as itself exactly if nothing in it has to be escaped.** -/
theorem reads_self_iff : Reads text (units text) ↔ ∀ c ∈ text, IsPlain c := by
  constructor
  · intro reads
    exact reads.length_le.2 rfl
  · intro isPlain
    induction text with
    | nil => exact Reads.nil
    | cons c text ih =>
      rw [List.forall_mem_cons] at isPlain
      exact Reads.plain isPlain.1 (ih isPlain.2)

theorem toList_quotes (name : String) : ("\"" ++ name ++ "\"").toList = quoted name.toList := by
  rw [String.toList_append, String.toList_append]
  rfl

theorem quoted_inj {body : List Char} (same : quoted text = quoted body) : text = body :=
  List.append_cancel_right (List.cons.inj same).2

/-- A text in quotes reads as what stands between them reads as. -/
theorem readsAs_quoted_iff : ReadsAs (quoted text) content ↔ Reads text content := by
  constructor
  · rintro ⟨body, same, reads⟩
    rwa [quoted_inj same]
  · intro reads
    exact ⟨text, rfl, reads⟩

/-- No text reads as itself with its quotes. -/
theorem not_readsAs_self (text : List Char) : ¬ ReadsAs text (units text) := by
  rintro ⟨body, rfl, reads⟩
  have short := reads.length_le.1
  have long : (units (quoted body)).length = (units body).length + 2 := by
    simp [quoted, unitsOf, units]
  omega

end Literals

end Ambient.Token
