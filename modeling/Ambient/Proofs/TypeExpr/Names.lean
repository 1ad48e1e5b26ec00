import Ambient.References
import Ambient.TypeExpr.Form
import Ambient.Proofs.TypeExpr.Nested
/-!
# Names in type expressions

The names that documented types are made of: identifiers of ASCII characters, joined to paths. Their
characters are neither blanks nor brackets nor marks, so no pattern but that of a plain name can take
a name apart.

## Main definitions

* `TypeExpr.IsAsciiIdentifier`, `TypeExpr.IsPath`, `TypeExpr.IsName`.
* `TypeExpr.isPathChar`: the characters of a path.

## Main statements

* `TypeExpr.IsPath.isPathChar_of_mem`: the characters of a path.
* `TypeExpr.IsPath.exists_word`: a path starts with an identifier, which a joint follows if anything
  does.
-/

namespace Ambient.TypeExpr

/-- An identifier of ASCII characters. -/
def IsAsciiIdentifier (s : List Char) : Prop :=
  Text.isIdentifier s = true ∧ s.all (fun c => c.toNat < 128) = true

/-- Identifiers joined by `.`, `/`, `~` or `#`. -/
inductive IsPath : List Char → Prop
  | single {s : List Char} (identifier : IsAsciiIdentifier s) : IsPath s
  | joined {s rest : List Char} {joint : Char} (identifier : IsAsciiIdentifier s)
      (joins : References.isJoint joint = true) (tail : IsPath rest) :
      IsPath (s ++ joint :: rest)

/-- A path that is not the word `array` in any case of its letters. -/
def IsName (s : List Char) : Prop :=
  IsPath s ∧ s.map Char.toLower ≠ "array".toList

/-! ## Characters -/

/-- An ASCII character of an identifier. -/
def isWordChar (c : Char) : Bool :=
  Text.isNameChar c && decide (c.toNat < 128)

/-- A character of a path. -/
def isPathChar (c : Char) : Bool :=
  isWordChar c || References.isJoint c

section Characters

variable {c : Char}

theorem isPathChar_of_isWordChar (h : isWordChar c = true) : isPathChar c = true := by
  simp [isPathChar, h]

theorem isNameChar_of_isWordChar (h : isWordChar c = true) : Text.isNameChar c = true := by
  simp only [isWordChar, Bool.and_eq_true] at h
  exact h.1

theorem ne_of_isPathChar (h : isPathChar c = true) {x : Char} (other : isPathChar x = false) :
    c ≠ x := by
  rintro rfl
  rw [h] at other
  cases other

theorem le_toNat_of_isAlphanum (h : c.isAlphanum = true) : 48 ≤ c.toNat := by
  delta Char.isAlphanum Char.isAlpha Char.isUpper Char.isLower Char.isDigit at h
  simp only [Bool.or_eq_true, Bool.and_eq_true, decide_eq_true_eq] at h
  have toNat : c.toNat = c.val.toNat := rfl
  rcases h with (⟨h, _⟩ | ⟨h, _⟩) | ⟨h, _⟩ <;>
    · have bound := UInt32.le_iff_toNat_le.1 h
      rw [toNat]
      exact Nat.le_trans (by decide) bound

/-- Characters of identifiers come after the blanks. -/
theorem le_toNat_of_isWordChar (h : isWordChar c = true) : 36 ≤ c.toNat := by
  simp only [isWordChar, Text.isNameChar, Text.isWord, Bool.and_eq_true, decide_eq_true_eq,
    Bool.or_eq_true, beq_iff_eq] at h
  obtain ⟨word, ascii⟩ := h
  rw [if_pos ascii] at word
  simp only [Bool.or_eq_true, beq_iff_eq] at word
  rcases word with (alphanum | rfl) | rfl
  · have bound := le_toNat_of_isAlphanum alphanum
    omega
  · decide
  · decide

theorem isBlank_of_isPathChar (h : isPathChar c = true) : Text.isBlank c = false := by
  simp only [isPathChar, Bool.or_eq_true] at h
  rcases h with word | joint
  · have low := le_toNat_of_isWordChar word
    simp only [isWordChar, Bool.and_eq_true, decide_eq_true_eq] at word
    have high := word.2
    simp only [Text.isBlank, Bool.or_eq_false_iff, Bool.and_eq_false_imp, decide_eq_true_eq,
      decide_eq_false_iff_not, beq_eq_false_iff_ne]
    omega
  · simp only [References.isJoint, Bool.or_eq_true, beq_iff_eq] at joint
    rcases joint with ((rfl | rfl) | rfl) | rfl <;> rfl

theorem isOpening_of_isPathChar (h : isPathChar c = true) : isOpening c = false := by
  simp only [isOpening, Bool.or_eq_false_iff, beq_eq_false_iff_ne]
  exact ⟨⟨⟨ne_of_isPathChar h rfl, ne_of_isPathChar h rfl⟩, ne_of_isPathChar h rfl⟩,
    ne_of_isPathChar h rfl⟩

theorem isClosing_of_isPathChar (h : isPathChar c = true) : isClosing c = false := by
  simp only [isClosing, Bool.or_eq_false_iff, beq_eq_false_iff_ne]
  exact ⟨⟨⟨ne_of_isPathChar h rfl, ne_of_isPathChar h rfl⟩, ne_of_isPathChar h rfl⟩,
    ne_of_isPathChar h rfl⟩

theorem isBaseChar_of_isPathChar (h : isPathChar c = true) : isBaseChar c = true := by
  simp only [isPathChar, isWordChar, References.isJoint, Bool.or_eq_true, Bool.and_eq_true,
    beq_iff_eq] at h
  rcases h with ⟨word, -⟩ | ((rfl | rfl) | rfl) | rfl
  · simp [isBaseChar, word]
  all_goals rfl

theorem isPathChar_eq_false (h : isBaseChar c = false) : isPathChar c = false := by
  cases path : isPathChar c with
  | false => rfl
  | true =>
    rw [isBaseChar_of_isPathChar path] at h
    cases h

end Characters

/-! ## Texts -/

variable {s : List Char}

theorem IsAsciiIdentifier.isWordChar_of_mem (h : IsAsciiIdentifier s) :
    ∀ c ∈ s, isWordChar c = true := by
  intro c mem
  have ascii := of_decide_eq_true (List.all_eq_true.1 h.2 c mem)
  have nameChar : Text.isNameChar c = true := by
    cases s with
    | nil => cases mem
    | cons first rest =>
      have identifier := h.1
      simp only [Text.isIdentifier, Bool.and_eq_true, List.all_eq_true] at identifier
      rcases List.mem_cons.1 mem with rfl | inRest
      · exact Text.isNameChar_of_isNameStart identifier.1
      · exact identifier.2 c inRest
  simp [isWordChar, nameChar, ascii]

theorem IsAsciiIdentifier.ne_nil (h : IsAsciiIdentifier s) : s ≠ [] := by
  rintro rfl
  cases h.1

namespace IsPath

theorem isPathChar_of_mem (h : IsPath s) : ∀ c ∈ s, isPathChar c = true := by
  induction h with
  | single identifier =>
    exact fun c mem => isPathChar_of_isWordChar (identifier.isWordChar_of_mem c mem)
  | @joined word rest joint identifier joins tail ih =>
    intro c mem
    rcases List.mem_append.1 mem with inWord | mem
    · exact isPathChar_of_isWordChar (identifier.isWordChar_of_mem c inWord)
    · rcases List.mem_cons.1 mem with rfl | inRest
      · simp [isPathChar, joins]
      · exact ih c inRest

/-- A path ends in a character of an identifier. -/
theorem last (h : IsPath s) : ∃ c, s.getLast? = some c ∧ isWordChar c = true := by
  induction h with
  | @single word identifier =>
    refine ⟨word.getLast identifier.ne_nil, List.getLast?_eq_some_getLast identifier.ne_nil, ?_⟩
    exact identifier.isWordChar_of_mem _ (List.getLast_mem identifier.ne_nil)
  | joined identifier joins tail ih =>
    obtain ⟨c, last, word⟩ := ih
    refine ⟨c, ?_, word⟩
    rw [List.getLast?_append, List.getLast?_cons, last]
    rfl

/-- A path starts with an identifier, which a joint follows if anything does. -/
theorem exists_word (h : IsPath s) : ∃ word rest, s = word ++ rest ∧ word ≠ [] ∧
    (∀ c ∈ word, isWordChar c = true) ∧ ∀ c, rest.head? = some c → References.isJoint c = true := by
  cases h with
  | single identifier =>
    refine ⟨s, [], (List.append_nil s).symm, identifier.ne_nil, identifier.isWordChar_of_mem, ?_⟩
    intro c first
    cases first
  | @joined word rest joint identifier joins tail =>
    refine ⟨word, joint :: rest, rfl, identifier.ne_nil, identifier.isWordChar_of_mem, ?_⟩
    intro c first
    cases first
    exact joins

theorem ne_nil (h : IsPath s) : s ≠ [] := by
  obtain ⟨c, last, -⟩ := h.last
  rintro rfl
  cases last

theorem tight (h : IsPath s) : Text.Tight s where
  first := by
    refine ⟨s.head h.ne_nil, List.head?_eq_some_head h.ne_nil, ?_⟩
    exact isBlank_of_isPathChar (h.isPathChar_of_mem _ (List.head_mem h.ne_nil))
  last := by
    obtain ⟨c, last, word⟩ := h.last
    exact ⟨c, last, isBlank_of_isPathChar (isPathChar_of_isWordChar word)⟩

theorem nested (h : IsPath s) {outside : Char → Prop}
    (allowed : ∀ c, isPathChar c = true → outside c) : Nested outside s :=
  .of_forall (fun c mem => isOpening_of_isPathChar (h.isPathChar_of_mem c mem))
    (fun c mem => isClosing_of_isPathChar (h.isPathChar_of_mem c mem))
    fun c mem => allowed c (h.isPathChar_of_mem c mem)

theorem not_mem (h : IsPath s) {c : Char} (other : isPathChar c = false) : c ∉ s :=
  fun mem => ne_of_isPathChar (h.isPathChar_of_mem c mem) other rfl

end IsPath

theorem isPath_array : IsPath "Array".toList := .single ⟨by decide, by decide⟩

theorem isPath_object : IsPath "Object".toList := .single ⟨by decide, by decide⟩

theorem isPath_function : IsPath "function".toList := .single ⟨by decide, by decide⟩

theorem isPath_any : IsPath "any".toList := .single ⟨by decide, by decide⟩

/-! ## Names by position -/

/-- The name of an argument by its position is an identifier. -/
theorem isWordChar_of_mem_position (index : Nat) :
    ∀ c ∈ ("arg" ++ toString index).toList, isWordChar c = true := by
  intro c mem
  rw [String.toList_append, List.mem_append, Nat.toString_eq_repr, Nat.toList_repr] at mem
  rcases mem with inWord | inDigits
  · have letters : "arg".toList.all isWordChar = true := rfl
    exact List.all_eq_true.1 letters c inWord
  · have digit := Nat.isDigit_of_mem_toDigits (by decide) (by decide) inDigits
    have alphanum : c.isAlphanum = true := by simp [Char.isAlphanum, digit]
    simp [isWordChar, Text.isNameChar, Text.isWord_of_isAlphanum alphanum,
      Text.toNat_lt_of_isAlphanum alphanum]

/-! ## The word `array` -/

theorem isPathChar_of_isAlphanum {c : Char} (h : c.isAlphanum = true) (ascii : c.toNat < 128) :
    isPathChar c = true := by
  refine isPathChar_of_isWordChar ?_
  simp [isWordChar, Text.isNameChar, Text.isWord, h, ascii]

/-- Letters whose lower case is another character are characters of paths. -/
theorem toLower_eq_self {c : Char} (other : isPathChar c = false) : c.toLower = c := by
  unfold Char.toLower
  split
  case isTrue upper =>
    have letter : c.isAlphanum = true := by
      delta Char.isAlphanum Char.isAlpha Char.isUpper
      simp only [Bool.or_eq_true, decide_eq_true_eq]
      exact .inl (.inl upper)
    have bound := UInt32.le_iff_toNat_le.1 upper.2
    have ascii : c.toNat < 128 := Nat.lt_of_le_of_lt bound (by decide)
    rw [isPathChar_of_isAlphanum letter ascii] at other
    cases other
  case isFalse => rfl

/-- A text with a character that no path has is not the word `array`. -/
theorem isArrayWord_eq_false {c : Char} (mem : c ∈ s) (other : isPathChar c = false) :
    Form.isArrayWord s = false := by
  unfold Form.isArrayWord
  rw [beq_eq_false_iff_ne]
  intro word
  have lower : c.toLower ∈ "array".toList := word ▸ List.mem_map_of_mem mem
  rw [toLower_eq_self other] at lower
  have path : "array".toList.all isPathChar = true := by decide
  rw [List.all_eq_true.1 path c lower] at other
  cases other

/-- No name is the word `Array`. -/
theorem IsName.ne_array (h : IsName s) : s ≠ "Array".toList := by
  rintro rfl
  exact h.2 rfl

end Ambient.TypeExpr
