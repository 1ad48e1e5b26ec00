import Ambient.Text.Search
import Ambient.Text.Blank
import Ambient.Text.Word
/-!
# Laws of cutting and trimming texts

## Main definitions

* `Text.Tight`: a text with something in it and no blanks at either end.
* `Text.EndsSolid`: a text that does not end in a blank.
* `Text.pad`: some spaces.

## Main statements

* `Text.dropStart?_eq_some_iff`, `Text.dropFinish?_eq_some_iff`: dropping a pattern undoes putting it
  there.
* `Text.takeWhile_word`, `Text.dropWhile_word`: a word ends at a character of another class.
* `Text.joinWith_cons`: joining goes from one string to the next.
* `Text.occursIn_append`: a pattern occurs wherever it is put.
* `Text.aroundLast?_eq_some`: behind the last occurrence of a pattern it does not occur again.
* `Text.exists_blanks_trim`: only blanks are trimmed away.
* `Text.EndsSolid.trim_eq`, `Text.trim_append_solid`: what is trimmed at the start only.
* `Text.Tight.trim_append`: trimming takes away the blanks around a tight text, and nothing else.
-/

namespace Ambient.Text

/-! ## Patterns at the ends -/

theorem dropStart?_eq_some_iff {pattern text rest : List Char} :
    dropStart? pattern text = some rest ↔ text = pattern ++ rest := by
  induction pattern generalizing text with
  | nil => simp [dropStart?]
  | cons p pattern ih =>
    cases text with
    | nil => simp [dropStart?]
    | cons c text =>
      by_cases same : p = c
      · simp [dropStart?, same, ih]
      · simp [dropStart?, same, Ne.symm same]

theorem dropFinish?_eq_some_iff {pattern text rest : List Char} :
    dropFinish? pattern text = some rest ↔ text = rest ++ pattern := by
  unfold dropFinish?
  rw [Option.map_eq_some_iff]
  constructor
  · rintro ⟨reversed, found, rfl⟩
    have split := dropStart?_eq_some_iff.1 found
    rw [← List.reverse_reverse text, split, List.reverse_append, List.reverse_reverse]
  · rintro rfl
    refine ⟨rest.reverse, dropStart?_eq_some_iff.2 ?_, List.reverse_reverse rest⟩
    rw [List.reverse_append]

theorem dropStart?_append (pattern rest : List Char) :
    dropStart? pattern (pattern ++ rest) = some rest :=
  dropStart?_eq_some_iff.2 rfl

theorem dropFinish?_append (rest pattern : List Char) :
    dropFinish? pattern (rest ++ pattern) = some rest :=
  dropFinish?_eq_some_iff.2 rfl

/-- A pattern is not dropped from a text that starts with another character. -/
theorem dropStart?_eq_none_of_head {p : Char} {pattern text : List Char}
    (h : text.head? ≠ some p) : dropStart? (p :: pattern) text = none := by
  cases text with
  | nil => rfl
  | cons c text =>
    have differs : p ≠ c := by
      rintro rfl
      exact h rfl
    simp [dropStart?, differs]

/-- A pattern is not dropped from a text that ends with another character. -/
theorem dropFinish?_eq_none_of_last {p : Char} {pattern text : List Char}
    (h : text.getLast? ≠ some p) : dropFinish? (pattern ++ [p]) text = none := by
  unfold dropFinish?
  rw [List.reverse_append, List.reverse_singleton, List.singleton_append,
    dropStart?_eq_none_of_head, Option.map_none]
  rwa [List.head?_reverse]

/-! ## Words -/

section Word

variable {p : Char → Bool} {word : List Char}

/-- A word goes as far as its characters do. -/
theorem takeWhile_word (chars : ∀ c ∈ word, p c = true) {c : Char} (stop : p c = false)
    (rest : List Char) : (word ++ c :: rest).takeWhile p = word := by
  rw [List.takeWhile_append_of_pos chars, List.takeWhile_cons_of_neg (by simp [stop]),
    List.append_nil]

theorem dropWhile_word (chars : ∀ c ∈ word, p c = true) {c : Char} (stop : p c = false)
    (rest : List Char) : (word ++ c :: rest).dropWhile p = c :: rest := by
  rw [List.dropWhile_append_of_pos chars, List.dropWhile_cons_of_neg (by simp [stop])]

end Word

/-! ## Joined texts -/

theorem joinWith_cons (separator s : String) {rest : List String} (filled : rest ≠ []) :
    joinWith separator (s :: rest) = s ++ separator ++ joinWith separator rest := by
  cases rest with
  | nil => cases filled rfl
  | cons t rest => rfl

/-- A text in front of the first string stands in front of the whole. -/
theorem joinWith_append_head (separator before s : String) (rest : List String) :
    joinWith separator ((before ++ s) :: rest) = before ++ joinWith separator (s :: rest) := by
  cases rest with
  | nil => rfl
  | cons t rest =>
    rw [joinWith, joinWith, String.append_assoc, String.append_assoc, String.append_assoc]

/-- The characters of all strings, and a separator between each two. -/
theorem length_joinWith (separator : String) (texts : List String) :
    (joinWith separator texts).length =
      (texts.flatMap String.toList).length + (texts.length - 1) * separator.length := by
  induction texts with
  | nil => simp [joinWith]
  | cons s rest ih =>
    cases rest with
    | nil => simp [joinWith, String.length_toList]
    | cons t rest =>
      rw [joinWith, String.length_append, String.length_append, ih]
      simp only [List.flatMap_cons, List.length_append, String.length_toList, List.length_cons,
        Nat.add_sub_cancel, Nat.add_mul, Nat.one_mul]
      omega

/-! ## Occurrences -/

theorem occursIn_cons (pattern : List Char) (c : Char) (text : List Char) :
    occursIn pattern (c :: text) =
      ((dropStart? pattern (c :: text)).isSome || occursIn pattern text) := by
  unfold occursIn
  rw [afterFirst?]
  cases dropStart? pattern (c :: text) <;> rfl

theorem occursIn_append (before pattern after : List Char) :
    occursIn pattern (before ++ (pattern ++ after)) = true := by
  induction before with
  | nil =>
    have whole := dropStart?_append pattern after
    rw [List.nil_append]
    cases text : pattern ++ after with
    | nil =>
      rw [text] at whole
      simp [occursIn, afterFirst?, whole]
    | cons c rest =>
      rw [text] at whole
      rw [occursIn_cons, whole, Option.isSome_some, Bool.true_or]
  | cons c before ih => rw [List.cons_append, occursIn_cons, ih, Bool.or_true]

section LastOccurrence

variable {pattern text before found : List Char}

theorem aroundLast?_eq_none_iff :
    aroundLast? pattern text = none ↔ occursIn pattern text = false := by
  induction text with
  | nil => cases pattern <;> simp [aroundLast?, occursIn, afterFirst?, dropStart?]
  | cons c text ih =>
    rw [aroundLast?, occursIn_cons, Bool.or_eq_false_iff, ← ih]
    cases aroundLast? pattern text with
    | none => cases dropStart? pattern (c :: text) <;> simp
    | some around => simp

/-- Behind the first character of the last occurrence there is none. -/
theorem aroundLast?_eq_some {p : Char}
    (h : aroundLast? (p :: pattern) text = some (before, found)) :
    ∃ after, text = before ++ found ∧ found = p :: (pattern ++ after) ∧
      occursIn (p :: pattern) (pattern ++ after) = false := by
  induction text generalizing before with
  | nil => cases h
  | cons c text ih =>
    rw [aroundLast?] at h
    cases further : aroundLast? (p :: pattern) text with
    | some around =>
      rw [further] at h
      cases h
      obtain ⟨after, rfl, rest⟩ := ih further
      exact ⟨after, rfl, rest⟩
    | none =>
      rw [further] at h
      simp only [Option.ite_none_right_eq_some, Option.some.injEq, Prod.mk.injEq] at h
      obtain ⟨here, rfl, rfl⟩ := h
      obtain ⟨after, start⟩ := Option.isSome_iff_exists.1 here
      cases dropStart?_eq_some_iff.1 start
      exact ⟨after, rfl, rfl, aroundLast?_eq_none_iff.1 further⟩

end LastOccurrence

/-! ## Lengths -/

theorem two_le_length_cons {s : List Char} (filled : s ≠ []) (c : Char) : 2 ≤ (c :: s).length := by
  have positive := List.length_pos_iff.2 filled
  rw [List.length_cons]
  omega

theorem two_le_length_concat {s : List Char} (filled : s ≠ []) (c : Char) :
    2 ≤ (s ++ [c]).length := by
  have positive := List.length_pos_iff.2 filled
  rw [List.length_append, List.length_singleton]
  omega

/-! ## Tight texts -/

/-- A text with something in it and no blanks at either end. -/
structure Tight (s : List Char) : Prop where
  first : ∃ c, s.head? = some c ∧ isBlank c = false
  last : ∃ c, s.getLast? = some c ∧ isBlank c = false

theorem trimStart_eq_self {s : List Char} {c : Char} (first : s.head? = some c)
    (solid : isBlank c = false) : trimStart s = s := by
  cases s with
  | nil => cases first
  | cons d rest =>
    cases first
    simp [trimStart, solid]

theorem trimEnd_eq_self {s : List Char} {c : Char} (last : s.getLast? = some c)
    (solid : isBlank c = false) : trimEnd s = s := by
  have first : s.reverse.head? = some c := by rw [List.head?_reverse, last]
  have kept := trimStart_eq_self first solid
  unfold trimStart at kept
  rw [trimEnd, kept, List.reverse_reverse]

/-- Blanks in front of a text are taken away first. -/
theorem trimStart_append {before : List Char} (blank : ∀ c ∈ before, isBlank c = true)
    (s : List Char) : trimStart (before ++ s) = trimStart s :=
  List.dropWhile_append_of_pos blank

/-- Blanks behind a text are taken away first. -/
theorem trimEnd_append (s : List Char) {after : List Char}
    (blank : ∀ c ∈ after, isBlank c = true) : trimEnd (s ++ after) = trimEnd s := by
  unfold trimEnd
  rw [List.reverse_append, List.dropWhile_append_of_pos]
  intro c mem
  exact blank c (List.mem_reverse.1 mem)

/-- What is dropped at the end of a text is of the class that is dropped. -/
theorem exists_dropped_append (p : Char → Bool) (s : List Char) :
    ∃ after, (∀ c ∈ after, p c = true) ∧ (s.reverse.dropWhile p).reverse ++ after = s := by
  refine ⟨(s.reverse.takeWhile p).reverse, ?_, ?_⟩
  · intro c mem
    exact List.all_eq_true.1 List.all_takeWhile c (List.mem_reverse.1 mem)
  · rw [← List.reverse_append, List.takeWhile_append_dropWhile, List.reverse_reverse]

/-- Only blanks are dropped at the start of a text. -/
theorem exists_blanks_trimStart (s : List Char) :
    ∃ before, (∀ c ∈ before, isBlank c = true) ∧ s = before ++ trimStart s :=
  ⟨s.takeWhile isBlank, List.all_eq_true.1 List.all_takeWhile,
    List.takeWhile_append_dropWhile.symm⟩

/-- What is trimmed at its start does not start with a blank. -/
theorem isBlank_of_trimStart {s rest : List Char} {c : Char} (bare : trimStart s = c :: rest) :
    isBlank c = false := by
  have first := List.head?_dropWhile_not isBlank s
  rw [← trimStart, bare] at first
  exact first

theorem trimStart_trimStart (s : List Char) : trimStart (trimStart s) = trimStart s := by
  cases bare : trimStart s with
  | nil => rfl
  | cons c rest => exact trimStart_eq_self rfl (isBlank_of_trimStart bare)

theorem trim_trimStart (s : List Char) : trim (trimStart s) = trim s := by
  rw [trim, trimStart_trimStart, trim]

theorem trimStart_ne_nil {s : List Char} (filled : trim s ≠ []) : trimStart s ≠ [] := by
  intro bare
  rw [trim, bare] at filled
  exact filled rfl

/-- Only blanks are trimmed away. -/
theorem exists_blanks_trim (s : List Char) :
    ∃ before after, (∀ c ∈ before, isBlank c = true) ∧ (∀ c ∈ after, isBlank c = true) ∧
      s = before ++ (trim s ++ after) := by
  obtain ⟨before, blank, front⟩ := exists_blanks_trimStart s
  obtain ⟨after, blank', back⟩ := exists_dropped_append isBlank (trimStart s)
  refine ⟨before, after, blank, blank', ?_⟩
  show s = before ++ (((trimStart s).reverse.dropWhile isBlank).reverse ++ after)
  rw [back]
  exact front

namespace Tight

variable {s : List Char}

theorem trim_eq (h : Tight s) : trim s = s := by
  obtain ⟨c, first, solid⟩ := h.first
  obtain ⟨d, last, solid'⟩ := h.last
  rw [trim, trimStart_eq_self first solid, trimEnd_eq_self last solid']

theorem ne_nil (h : Tight s) : s ≠ [] := by
  rintro rfl
  obtain ⟨c, first, -⟩ := h.first
  cases first

/-- What stands behind a tight text does not change how it starts. -/
theorem head?_append (h : Tight s) (after : List Char) : (s ++ after).head? = s.head? := by
  obtain ⟨c, first, -⟩ := h.first
  rw [List.head?_append, first]
  rfl

/-- What stands in front of a tight text does not change how it ends. -/
theorem getLast?_append (h : Tight s) (before : List Char) :
    (before ++ s).getLast? = s.getLast? := by
  obtain ⟨c, last, -⟩ := h.last
  rw [List.getLast?_append, last]
  rfl

/-- The end of a tight text is tight if it does not start with a blank. -/
theorem of_append {before : List Char} (h : Tight (before ++ s)) {c : Char}
    (first : s.head? = some c) (solid : isBlank c = false) : Tight s where
  first := ⟨c, first, solid⟩
  last := by
    obtain ⟨d, last, solid'⟩ := h.last
    refine ⟨d, ?_, solid'⟩
    obtain ⟨e, rest, rfl⟩ : ∃ e rest, s = e :: rest := by
      cases s with
      | nil => cases first
      | cons e rest => exact ⟨e, rest, rfl⟩
    rw [List.getLast?_append, List.getLast?_cons] at last
    rw [List.getLast?_cons]
    exact last

/-- The first text decides how two texts start, the second one how they end. -/
theorem append {t : List Char} (h : Tight s) (h' : Tight t) : Tight (s ++ t) where
  first := by
    rw [h.head?_append]
    exact h.first
  last := by
    rw [h'.getLast?_append]
    exact h'.last

end Tight

/-! ## Texts without blanks at their end -/

/-- A text that does not end in a blank. -/
def EndsSolid (s : List Char) : Prop :=
  ∀ c, s.getLast? = some c → isBlank c = false

theorem endsSolid_trim (s : List Char) : EndsSolid (trim s) := by
  intro c last
  have first := List.head?_dropWhile_not isBlank (trimStart s).reverse
  rw [trim, trimEnd, List.getLast?_reverse] at last
  rw [last] at first
  exact first

/-- What is left of a text that is trimmed is tight, if anything is. -/
theorem tight_trim {s : List Char} (filled : trim s ≠ []) : Tight (trim s) where
  first := by
    obtain ⟨after, -, front⟩ := exists_dropped_append isBlank (trimStart s)
    obtain ⟨c, rest, bare⟩ := List.exists_cons_of_ne_nil filled
    refine ⟨c, by rw [bare]; rfl, ?_⟩
    have start : trimStart s = c :: (rest ++ after) := by
      rw [← front, ← List.cons_append, ← bare]
      rfl
    exact isBlank_of_trimStart start
  last := ⟨(trim s).getLast filled, List.getLast?_eq_some_getLast filled,
    endsSolid_trim s _ (List.getLast?_eq_some_getLast filled)⟩

namespace EndsSolid

variable {s : List Char}

/-- The end of such a text is one, too. -/
theorem of_append {before : List Char} (h : EndsSolid (before ++ s)) : EndsSolid s := by
  intro c last
  refine h c ?_
  rw [List.getLast?_append, last]
  rfl

theorem of_cons {c : Char} (h : EndsSolid (c :: s)) : EndsSolid s :=
  @of_append s [c] h

/-- Such a text is trimmed at its start only. -/
theorem trim_eq (h : EndsSolid s) : trim s = trimStart s := by
  obtain ⟨before, -, front⟩ := exists_blanks_trimStart s
  rw [front] at h
  rw [trim]
  cases last : (trimStart s).getLast? with
  | none =>
    rw [List.getLast?_eq_none_iff.1 last]
    rfl
  | some c => exact trimEnd_eq_self last (h.of_append c last)

/-- A text of blanks is no such text. -/
theorem eq_nil_of_isBlank (h : EndsSolid s) (blank : ∀ c ∈ s, isBlank c = true) : s = [] := by
  cases last : s.getLast? with
  | none => exact List.getLast?_eq_none_iff.1 last
  | some c =>
    have solid := h c last
    rw [blank c (List.mem_of_getLast? last)] at solid
    cases solid

end EndsSolid

/-- What follows a text that is not blank stays behind it when both are trimmed. -/
theorem trim_append_solid {s t : List Char} (filled : trim s ≠ []) {c : Char}
    (last : t.getLast? = some c) (solid : isBlank c = false) :
    trim (s ++ t) = trimStart s ++ t := by
  have ending : EndsSolid (s ++ t) := by
    intro d last'
    rw [List.getLast?_append, last] at last'
    cases last'
    exact solid
  obtain ⟨blanks, blank, front⟩ := exists_blanks_trimStart s
  obtain ⟨d, rest, bare⟩ := List.exists_cons_of_ne_nil (trimStart_ne_nil filled)
  have whole : s ++ t = blanks ++ (trimStart s ++ t) := by rw [← List.append_assoc, ← front]
  rw [ending.trim_eq, whole, trimStart_append blank, bare]
  exact trimStart_eq_self rfl (isBlank_of_trimStart bare)

/-- Some spaces. -/
def pad (n : Nat) : List Char := List.replicate n ' '

@[simp] theorem pad_zero : pad 0 = [] := rfl

theorem isBlank_of_mem_pad {n : Nat} {c : Char} (h : c ∈ pad n) : isBlank c = true := by
  rw [List.eq_of_mem_replicate h]
  rfl

theorem not_mem_pad {c : Char} (noSpace : c ≠ ' ') (n : Nat) : c ∉ pad n :=
  fun mem => noSpace (List.eq_of_mem_replicate mem)

/-- A text behind a separator and spaces ends as it does alone. -/
theorem getLast?_spaced {s : List Char} {c : Char} (last : s.getLast? = some c)
    (before : List Char) (separator : Char) (after : Nat) :
    (before ++ separator :: (pad after ++ s)).getLast? = some c := by
  rw [List.getLast?_append, List.getLast?_cons, List.getLast?_append, last]
  rfl

/-- Trimming takes away the blanks around a tight text. -/
theorem Tight.trim_append {s before after : List Char} (h : Tight s)
    (blank : ∀ c ∈ before, isBlank c = true) (blank' : ∀ c ∈ after, isBlank c = true) :
    trim (before ++ s ++ after) = s := by
  rw [trim, List.append_assoc, trimStart_append blank]
  obtain ⟨c, first, solid⟩ := h.first
  obtain ⟨d, last, solid'⟩ := h.last
  have start : (s ++ after).head? = some c := (h.head?_append _).trans first
  rw [trimStart_eq_self start solid, trimEnd_append s blank', trimEnd_eq_self last solid']

/-- Trimming takes away the spaces around a tight text. -/
theorem Tight.trim_pad {s : List Char} (h : Tight s) (before after : Nat) :
    trim (pad before ++ s ++ pad after) = s :=
  h.trim_append (fun _ => isBlank_of_mem_pad) fun _ => isBlank_of_mem_pad

end Ambient.Text
