import Ambient.Proofs.TypeExpr.Patterns
/-!
# Texts of base characters

References, and the bases of generic applications, are made of word characters of all scripts and of
a few joints. None of these characters is a blank, a bracket or a mark, so the readers of type
expressions find nothing in such a text that they could take apart.

## Main definitions

* `TypeExpr.IsBase`: a text of base characters with something in it.

## Main statements

* `TypeExpr.isBlank_of_isBaseChar`: no word character of any script is a blank.
* `TypeExpr.isBase_of_isReference`: every reference is such a text.
-/

namespace Ambient

/-! ## Blanks and word characters -/

namespace Text

/-- The code points of the blanks. -/
def blankCodes : List Nat :=
  [9, 10, 11, 12, 13, 0x20, 0x85, 0xA0, 0x1680, 0x2000, 0x2001, 0x2002, 0x2003, 0x2004, 0x2005,
    0x2006, 0x2007, 0x2008, 0x2009, 0x200A, 0x2028, 0x2029, 0x202F, 0x205F, 0x3000]

theorem toNat_mem_blankCodes {c : Char} (blank : isBlank c = true) : c.toNat ∈ blankCodes := by
  simp only [isBlank, Bool.or_eq_true, Bool.and_eq_true, decide_eq_true_eq, beq_iff_eq] at blank
  simp only [blankCodes, List.mem_cons, List.not_mem_nil, or_false]
  omega

/-- No blank is in one of the ranges of word characters. -/
theorem not_inRanges_of_mem_blankCodes : ∀ n ∈ blankCodes,
    (wordRanges.any fun range => range.1 ≤ n && n ≤ range.2) = false := by
  simp only [← Array.any_toList]
  decide +kernel

/-- No word character is a blank. -/
theorem isBlank_of_isWord {c : Char} (word : isWord c = true) : isBlank c = false := by
  rw [← Bool.not_eq_true]
  intro blank
  have code := toNat_mem_blankCodes blank
  unfold isWord at word
  split at word
  case isTrue ascii =>
    have low : c.toNat ≤ 32 := by
      simp only [blankCodes, List.mem_cons, List.not_mem_nil, or_false] at code
      omega
    rw [Bool.or_eq_true, beq_iff_eq] at word
    rcases word with alphanum | rfl
    · have high := TypeExpr.le_toNat_of_isAlphanum alphanum
      omega
    · exact absurd low (by decide)
  case isFalse =>
    rw [not_inRanges_of_mem_blankCodes _ code] at word
    cases word

/-- What is in no piece between cuts is a cut itself. -/
theorem forall_mem_of_splitOn {isCut : Char → Bool} {P : Char → Prop} {text : List Char}
    (cuts : ∀ c, isCut c = true → P c) (pieces : ∀ piece ∈ splitOn isCut text, ∀ c ∈ piece, P c) :
    ∀ c ∈ text, P c := by
  induction text with
  | nil => exact fun c mem => absurd mem List.not_mem_nil
  | cons d text ih =>
    unfold splitOn at pieces
    rw [List.forall_mem_cons]
    by_cases cut : isCut d = true
    · rw [if_pos cut, List.forall_mem_cons] at pieces
      exact ⟨cuts d cut, ih pieces.2⟩
    · rw [if_neg cut] at pieces
      cases split : splitOn isCut text with
      | nil => exact absurd split (splitOn_ne_nil isCut text)
      | cons piece rest =>
        rw [split] at pieces ih
        simp only [List.forall_mem_cons] at pieces ih
        exact ⟨pieces.1.1, ih ⟨pieces.1.2, pieces.2⟩⟩

end Text

namespace TypeExpr

/-! ## Characters of bases -/

section Characters

variable {c : Char}

theorem ne_of_isBaseChar (h : isBaseChar c = true) {x : Char} (other : isBaseChar x = false) :
    c ≠ x := by
  rintro rfl
  rw [h] at other
  cases other

theorem isBlank_of_isBaseChar (h : isBaseChar c = true) : Text.isBlank c = false := by
  simp only [isBaseChar, Text.isNameChar, Bool.or_eq_true, beq_iff_eq] at h
  rcases h with ((((((word | rfl) | rfl) | rfl) | rfl) | rfl) | rfl) | rfl
  · exact Text.isBlank_of_isWord word
  all_goals rfl

theorem isClosing_of_isBaseChar (h : isBaseChar c = true) : isClosing c = false := by
  simp only [isClosing, Bool.or_eq_false_iff, beq_eq_false_iff_ne]
  exact ⟨⟨⟨ne_of_isBaseChar h rfl, ne_of_isBaseChar h rfl⟩, ne_of_isBaseChar h rfl⟩,
    ne_of_isBaseChar h rfl⟩

theorem isBaseChar_of_isNameChar (h : Text.isNameChar c = true) : isBaseChar c = true := by
  simp [isBaseChar, h]

theorem isBlank_of_isNameChar (h : Text.isNameChar c = true) : Text.isBlank c = false :=
  isBlank_of_isBaseChar (isBaseChar_of_isNameChar h)

theorem isNameChar_of_isBlank (h : Text.isBlank c = true) : Text.isNameChar c = false := by
  rw [← Bool.not_eq_true]
  intro nameChar
  rw [isBlank_of_isNameChar nameChar] at h
  cases h

theorem isBaseChar_of_isJoint (h : References.isJoint c = true) : isBaseChar c = true := by
  simp only [References.isJoint, Bool.or_eq_true, beq_iff_eq] at h
  rcases h with ((rfl | rfl) | rfl) | rfl <;> rfl

end Characters

/-! ## Texts of bases -/

/-- A text of base characters with something in it. -/
structure IsBase (s : List Char) : Prop where
  filled : s ≠ []
  chars : ∀ c ∈ s, isBaseChar c = true

namespace IsBase

variable {s : List Char}

theorem of_all (filled : s ≠ []) (all : s.all isBaseChar = true) : IsBase s :=
  ⟨filled, List.all_eq_true.1 all⟩

theorem not_mem (h : IsBase s) {c : Char} (other : isBaseChar c = false) : c ∉ s :=
  fun mem => ne_of_isBaseChar (h.chars c mem) other rfl

theorem head?_ne (h : IsBase s) {c : Char} (other : isBaseChar c = false) : s.head? ≠ some c :=
  fun first => h.not_mem other (List.mem_of_head? first)

theorem getLast?_ne (h : IsBase s) {c : Char} (other : isBaseChar c = false) :
    s.getLast? ≠ some c :=
  fun last => h.not_mem other (List.mem_of_getLast? last)

theorem tight (h : IsBase s) : Text.Tight s where
  first := ⟨s.head h.filled, List.head?_eq_some_head h.filled,
    isBlank_of_isBaseChar (h.chars _ (List.head_mem h.filled))⟩
  last := ⟨s.getLast h.filled, List.getLast?_eq_some_getLast h.filled,
    isBlank_of_isBaseChar (h.chars _ (List.getLast_mem h.filled))⟩

theorem nested (h : IsBase s) {outside : Char → Prop}
    (allowed : ∀ c, isBaseChar c = true → outside c) : Nested outside s :=
  .of_forall (fun c mem => isOpening_of_isBaseChar (h.chars c mem))
    (fun c mem => isClosing_of_isBaseChar (h.chars c mem)) fun c mem => allowed c (h.chars c mem)

/-- A base in front of another one. -/
theorem append {t : List Char} (h : IsBase s) (h' : IsBase t) : IsBase (s ++ t) where
  filled := fun empty => h.filled (List.append_eq_nil_iff.1 empty).1
  chars := fun c mem => (List.mem_append.1 mem).elim (h.chars c) (h'.chars c)

end IsBase

/-! ## References -/

/-- The characters of a segment of a reference are base characters. -/
theorem isBaseChar_of_mem_segment {s : List Char} (segment : References.isSegment s = true) :
    ∀ c ∈ s, isBaseChar c = true := by
  cases s with
  | nil => cases segment
  | cons first rest =>
    simp only [References.isSegment, Bool.and_eq_true, List.all_eq_true, Bool.or_eq_true,
      beq_iff_eq] at segment
    obtain ⟨starts, follow⟩ := segment
    rw [List.forall_mem_cons]
    refine ⟨isBaseChar_of_isNameChar (Text.isNameChar_of_isNameStart starts), ?_⟩
    intro c mem
    rcases follow c mem with nameChar | rfl
    · exact isBaseChar_of_isNameChar nameChar
    · rfl

/-- A text all of whose segments are segments of a reference. -/
theorem isBase_of_segments {path : List Char}
    (segments : (Text.splitOn References.isJoint path).all References.isSegment = true) :
    IsBase path where
  filled := by
    rintro rfl
    cases segments
  chars := Text.forall_mem_of_splitOn (fun _ => isBaseChar_of_isJoint) fun piece mem =>
    isBaseChar_of_mem_segment (List.all_eq_true.1 segments piece mem)

/-- Every reference is a text of base characters. -/
theorem isBase_of_isReference {name : String} (reference : References.isReference name = true) :
    IsBase name.toList := by
  unfold References.isReference at reference
  cases cut : Text.dropStart? "module:".toList name.toList with
  | none =>
    rw [cut] at reference
    exact isBase_of_segments reference
  | some path =>
    rw [cut] at reference
    rw [Text.dropStart?_eq_some_iff.1 cut]
    exact IsBase.append (.of_all (by decide) (by decide)) (isBase_of_segments reference)

end TypeExpr

end Ambient
