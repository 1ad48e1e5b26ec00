import Mathlib.Data.List.Infix
import Ambient.Proofs.Text
/-!
# Where a pattern occurs

An occurrence of a pattern is a contiguous part of the text. A character that is foreign to the
pattern parts the occurrences on its left from those on its right, so a text that is put together
with such characters between its parts has the occurrences of its parts and no others.

## Main statements

* `Text.occursIn_eq_true_iff`: the search finds the contiguous parts of a text.
* `Text.infix_append_cons_iff`, `Text.infix_append_foreign_iff`: occurrences on both sides of
  foreign characters.
* `Text.afterFirst?_append`: what follows the first occurrence of a word.
* `Text.not_infix_replaceAll`: a pair of characters that is broken up everywhere occurs nowhere.
* `Text.eq_of_split_at_pair`: a text is split at the only occurrence of a pair in one way.
-/

namespace Ambient.Text

variable {pattern text u v w : List Char} {a b c x : Char}

/-! ## The search -/

theorem isSome_dropStart?_iff : (dropStart? pattern text).isSome = true ↔ pattern <+: text := by
  rw [Option.isSome_iff_exists]
  exact exists_congr fun rest => dropStart?_eq_some_iff.trans eq_comm

/-- The search finds a pattern if and only if it is a contiguous part of the text. -/
theorem occursIn_eq_true_iff : occursIn pattern text = true ↔ pattern <:+: text := by
  induction text with
  | nil =>
    rw [List.infix_nil, ← List.prefix_nil, ← isSome_dropStart?_iff]
    rfl
  | cons c text ih =>
    rw [occursIn_cons, Bool.or_eq_true, isSome_dropStart?_iff, ih, List.infix_cons_iff]

/-! ## Foreign characters -/

/-- A pattern at the start of a text ends before the first character that is foreign to it. -/
theorem prefix_append_cons_iff (foreign : c ∉ pattern) :
    pattern <+: u ++ c :: v ↔ pattern <+: u := by
  constructor
  · intro start
    rcases List.prefix_or_prefix_of_prefix start (List.prefix_append u (c :: v)) with here | beyond
    · exact here
    · obtain ⟨rest, rfl⟩ := beyond
      rw [List.prefix_append_right_inj] at start
      cases rest with
      | nil => rw [List.append_nil]
      | cons d rest =>
        obtain ⟨rfl, -⟩ := List.cons_prefix_cons.1 start
        exact absurd (List.mem_append_right u List.mem_cons_self) foreign
  · intro start
    exact start.trans (List.prefix_append u (c :: v))

/-- A pattern occurs on the left of a foreign character or on its right. -/
theorem infix_append_cons_iff (filled : pattern ≠ []) (foreign : c ∉ pattern) :
    pattern <:+: u ++ c :: v ↔ pattern <:+: u ∨ pattern <:+: v := by
  induction u with
  | nil =>
    have apart : ¬ pattern <+: c :: v := by
      intro start
      exact filled (List.prefix_nil.1 ((@prefix_append_cons_iff pattern [] v c foreign).1 start))
    rw [List.nil_append, List.infix_cons_iff, List.infix_nil]
    simp only [apart, filled, false_or]
  | cons d u ih =>
    rw [List.cons_append, List.infix_cons_iff, ih, ← List.cons_append,
      prefix_append_cons_iff foreign, List.infix_cons_iff, or_assoc]

/-- The same for several foreign characters in a row. -/
theorem infix_append_foreign_iff (filled : pattern ≠ []) (parting : w ≠ [])
    (foreign : ∀ c ∈ w, c ∉ pattern) :
    pattern <:+: u ++ (w ++ v) ↔ pattern <:+: u ∨ pattern <:+: v := by
  induction w generalizing u with
  | nil => exact absurd rfl parting
  | cons c w ih =>
    rw [List.forall_mem_cons] at foreign
    rw [List.cons_append, infix_append_cons_iff filled foreign.1]
    cases w with
    | nil => rfl
    | cons d w =>
      have behind := @ih [] (List.cons_ne_nil d w) foreign.2
      rw [List.nil_append, List.infix_nil] at behind
      rw [behind]
      simp only [filled, false_or]

/-- **What follows the first occurrence of a word.** A word is found where it is put if it does not
occur before. As its first character is not repeated, it cannot start earlier and end in there. -/
theorem afterFirst?_append (single : a ∉ pattern) (absent : ¬ a :: pattern <:+: u)
    (v : List Char) : afterFirst? (a :: pattern) (u ++ (a :: pattern ++ v)) = some v := by
  induction u with
  | nil =>
    have found := dropStart?_append (a :: pattern) v
    rw [List.nil_append, List.cons_append, afterFirst?, ← List.cons_append, found]
  | cons c u ih =>
    have nothere : dropStart? (a :: pattern) (c :: (u ++ (a :: pattern ++ v))) = none := by
      rw [← Option.not_isSome_iff_eq_none, isSome_dropStart?_iff]
      intro start
      obtain ⟨rfl, further⟩ := List.cons_prefix_cons.1 start
      rw [List.cons_append, prefix_append_cons_iff single] at further
      exact absent (List.cons_prefix_cons.2 ⟨rfl, further⟩).isInfix
    rw [List.cons_append, afterFirst?, nothere]
    exact ih fun inside => absent (inside.trans (List.suffix_cons c u).isInfix)

/-! ## Pairs of characters -/

/-- Breaking up a pair does not change how a text starts. -/
theorem head?_replaceAll : (replaceAll [a, b] [a, x, b] text).head? = text.head? := by
  cases text with
  | nil => rw [replaceAll]
  | cons c text =>
    rw [replaceAll]
    split
    · rename_i here
      obtain ⟨rest, start⟩ := isSome_dropStart?_iff.1 here
      rw [← start]
      rfl
    · rfl

/-- **A pair of characters that is broken up everywhere occurs nowhere.** -/
theorem not_infix_replaceAll (differ : a ≠ b) (left : x ≠ a) (right : x ≠ b) (text : List Char) :
    ¬ [a, b] <:+: replaceAll [a, b] [a, x, b] text := by
  have filled : [a, b] ≠ [] := List.cons_ne_nil a [b]
  have foreign : x ∉ [a, b] := by simp [left, right]
  fun_induction replaceAll [a, b] [a, x, b] text with
  | case1 => simp
  | case2 c text here ih =>
    have whole : ∀ rest, [a, x, b] ++ rest = [a] ++ x :: (b :: rest) := fun _ => rfl
    rw [whole, infix_append_cons_iff filled foreign]
    rintro (alone | behind)
    · exact absurd alone.length_le (by simp)
    · rcases List.infix_cons_iff.1 behind with start | later
      · exact differ (List.cons_prefix_cons.1 start).1
      · exact ih later
  | case3 c text apart ih =>
    rw [List.infix_cons_iff]
    rintro (start | later)
    · -- The rest of the text starts as before, so the pair was there before.
      obtain ⟨rfl, behind⟩ := List.cons_prefix_cons.1 start
      obtain ⟨rest, same⟩ := behind
      have first : text.head? = some b := by
        rw [← @head?_replaceAll text a b x, ← same]
        rfl
      obtain ⟨d, text, rfl⟩ : ∃ d rest, text = d :: rest :=
        List.exists_cons_of_ne_nil (by rintro rfl; cases first)
      cases first
      exact apart (isSome_dropStart?_iff.2 ⟨text, rfl⟩)
    · exact ih later

/-- **A text is split at the only occurrence of a pair in one way.** -/
theorem eq_of_split_at_pair {rest : List Char} (before : ¬ [a, b] <:+: u ++ [a])
    (behind : ¬ [a, b] <:+: b :: rest) (same : u ++ ([a, b] ++ rest) = v ++ ([a, b] ++ w)) :
    v = u ∧ w = rest := by
  rcases List.append_eq_append_iff.1 same with ⟨gap, rfl, late⟩ | ⟨gap, rfl, early⟩
  · cases gap with
    | nil =>
      rw [List.nil_append, List.append_cancel_left_eq] at late
      exact ⟨List.append_nil u, late.symm⟩
    | cons d gap =>
      -- The other occurrence starts behind the first character of this one.
      have later : b :: rest = gap ++ ([a, b] ++ w) := (List.cons.inj late).2
      exact absurd ⟨gap, w, by rw [later, List.append_assoc]⟩ behind
  · cases gap with
    | nil =>
      rw [List.nil_append, List.append_cancel_left_eq] at early
      exact ⟨(List.append_nil v).symm, early⟩
    | cons d gap =>
      -- The other occurrence ends before the last character of this one.
      have further : d :: gap ++ [a] <+: [a, b] ++ w :=
        ⟨b :: rest, by rw [early, List.append_assoc, List.singleton_append]; rfl⟩
      have inside : [a, b] <+: d :: gap ++ [a] :=
        List.prefix_of_prefix_length_le (List.prefix_append [a, b] w) further (by simp)
      refine absurd (inside.isInfix.trans ?_) before
      rw [List.append_assoc]
      exact (List.suffix_append v _).isInfix

end Ambient.Text
