import Ambient.Proofs.TypeExpr.Balance
/-!
# Splitting outside of brackets

Arguments, alternatives and fields stand between separators outside of all brackets. Splitting a text
there drops nothing but blanks and separators, and it cuts nothing that hangs together. Whether a `>` is
a bracket depends on the character in front of it, and a cut changes what that is. But a blank or a
separator is no equals sign, so what stands behind one is read as it is at the start of a text. This is
the one law of cutting that everything here comes from.

## Main definitions

* `TypeExpr.IsPiece`: a trimmed and balanced text that is not split further.
* `TypeExpr.IsGap`: blanks and separators.
* `TypeExpr.LaidOut`: a text is made up of pieces and of gaps outside of all brackets.

## Main statements

* `TypeExpr.cutOutside_edge`: behind an edge a text is cut as if it started there.
* `TypeExpr.LaidOut.splitOutside_eq`: a text that is laid out with some pieces is split into them.
* `TypeExpr.laidOut_splitOutside`: a balanced text is laid out with its pieces.
* `TypeExpr.splitOutside_lossless`: splitting a balanced text, and splitting what it gives once more.
-/

namespace Ambient.TypeExpr

variable {separator c : Char} {depth : Nat} {previous : Char}
  {s t gap piece before rest : List Char} {pieces : List (List Char)}

/-! ## Cutting -/

/-- The character in front of a text matters only if it is an equals sign. -/
theorem cutOutside_congr {depth : Int} {other : Char} (noEquals : previous ≠ '=')
    (noEquals' : other ≠ '=') (s : List Char) :
    cutOutside separator depth previous s = cutOutside separator depth other s := by
  cases s with
  | nil => rfl
  | cons c s =>
    have same : role previous c = role other c := by simp [role, noEquals, noEquals']
    unfold cutOutside
    rw [same]

/-- **Behind an edge a text is cut as if it started there.** -/
theorem cutOutside_edge (edge : IsEdge c) (previous : Char) (s : List Char) :
    cutOutside separator 0 previous (c :: s) =
      if c = separator then ([], (cutOutside separator 0 '\x00' s).1 ::
        (cutOutside separator 0 '\x00' s).2)
      else (c :: (cutOutside separator 0 '\x00' s).1, (cutOutside separator 0 '\x00' s).2) := by
  have start := @cutOutside_congr separator c 0 '\x00' edge.noEquals (by decide) s
  have plain := role_plain edge.opening edge.closing previous
  split
  · rename_i same
    have cut : cutsAt separator 0 c = true := by
      simp [cutsAt, edge.opening, edge.closing, ← same]
    rw [cutOutside_of_cutsAt cut, plain]
    simp only [depthAfter, start]
  · rename_i other
    have whole : cutsAt separator 0 c = false := by simp [cutsAt, other]
    rw [cutOutside_of_not_cutsAt whole, plain]
    simp only [depthAfter, start]

/-- A text that is cut nowhere is its only piece. -/
theorem fst_cutOutside {depth : Int} (uncut : (cutOutside separator depth previous s).2 = []) :
    (cutOutside separator depth previous s).1 = s := by
  have whole := cutOutside_join separator depth previous s
  rwa [uncut, List.flatMap_nil, List.append_nil] at whole

/-- A text that is cut nowhere is not cut at its first character, nor behind it. -/
theorem uncut_cons {depth : Int} (uncut : (cutOutside separator depth previous (c :: s)).2 = []) :
    cutsAt separator depth c = false ∧
      (cutOutside separator (depthAfter depth (role previous c)) c s).2 = [] := by
  by_cases cut : cutsAt separator depth c = true
  · rw [cutOutside_of_cutsAt cut] at uncut
    cases uncut
  · rw [Bool.not_eq_true] at cut
    rw [cutOutside_of_not_cutsAt cut] at uncut
    exact ⟨cut, uncut⟩

/-- Cutting passes over a text that is cut nowhere and closes what is open. -/
theorem cutOutside_append_from (balanced : isBalancedFrom depth previous s = true)
    (uncut : (cutOutside separator depth previous s).2 = []) (rest : List Char) :
    cutOutside separator depth previous (s ++ rest) =
      (s ++ (cutOutside separator 0 (s.getLastD previous) rest).1,
        (cutOutside separator 0 (s.getLastD previous) rest).2) := by
  induction s generalizing depth previous with
  | nil =>
    have closed : depth = 0 := by simpa [isBalancedFrom] using balanced
    rw [closed]
    rfl
  | cons c s ih =>
    obtain ⟨whole, later⟩ := uncut_cons uncut
    obtain ⟨d, after, step⟩ := exists_depthAfter balanced
    rw [step] at balanced
    rw [after] at later
    rw [List.cons_append, cutOutside_of_not_cutsAt whole, List.getLastD_cons, after,
      ih balanced later]
    rfl

/-- Cutting passes over a balanced text that is cut nowhere. -/
theorem cutOutside_append (balanced : isBalanced s = true)
    (uncut : (cutOutside separator 0 '\x00' s).2 = []) (rest : List Char) :
    cutOutside separator 0 '\x00' (s ++ rest) =
      (s ++ (cutOutside separator 0 (s.getLastD '\x00') rest).1,
        (cutOutside separator 0 (s.getLastD '\x00') rest).2) :=
  cutOutside_append_from balanced uncut rest

/-- The front of a text that is cut nowhere is cut nowhere. -/
theorem uncut_front {depth : Int} (uncut : (cutOutside separator depth previous (s ++ t)).2 = []) :
    (cutOutside separator depth previous s).2 = [] := by
  induction s generalizing depth previous with
  | nil => rfl
  | cons c s ih =>
    obtain ⟨whole, later⟩ := uncut_cons uncut
    rw [cutOutside_of_not_cutsAt whole]
    exact ih later

/-- Behind blanks a text that is cut nowhere is cut nowhere. -/
theorem uncut_behind (blank : ∀ c ∈ gap, Text.isBlank c = true)
    (uncut : (cutOutside separator 0 '\x00' (gap ++ s)).2 = []) :
    (cutOutside separator 0 '\x00' s).2 = [] := by
  induction gap with
  | nil => exact uncut
  | cons c gap ih =>
    rw [List.forall_mem_cons] at blank
    rw [List.cons_append, cutOutside_edge (isEdge_of_isBlank blank.1)] at uncut
    split at uncut
    · cases uncut
    · exact ih blank.2 uncut

theorem uncut_fst (separator : Char) (depth : Int) (previous : Char) (s : List Char) :
    (cutOutside separator depth previous (cutOutside separator depth previous s).1).2 = [] := by
  induction s generalizing depth previous with
  | nil => rfl
  | cons c s ih =>
    by_cases cut : cutsAt separator depth c = true
    · rw [cutOutside_of_cutsAt cut]
      rfl
    · rw [Bool.not_eq_true] at cut
      rw [cutOutside_of_not_cutsAt cut, cutOutside_of_not_cutsAt cut]
      exact ih _ _

/-- The pieces of a cut text are cut nowhere. -/
theorem uncut_of_mem_cutOutside (edge : IsEdge separator) {depth : Int} :
    ∀ piece ∈ (cutOutside separator depth previous s).2,
      (cutOutside separator 0 '\x00' piece).2 = [] := by
  induction s generalizing depth previous with
  | nil => exact fun piece mem => absurd mem List.not_mem_nil
  | cons c s ih =>
    by_cases cut : cutsAt separator depth c = true
    · obtain ⟨rfl, zero, -⟩ : c = separator ∧ depth = 0 ∧ _ := by
        simpa [cutsAt, and_assoc] using cut
      subst zero
      rw [cutOutside_of_cutsAt cut, role_plain edge.opening edge.closing]
      refine List.forall_mem_cons.2 ⟨?_, ih⟩
      rw [depthAfter, cutOutside_congr edge.noEquals (show '\x00' ≠ '=' by decide)]
      exact uncut_fst c 0 '\x00' s
    · rw [cutOutside_of_not_cutsAt (Bool.eq_false_iff.2 cut)]
      exact ih

/-! ## Pieces -/

/-- A trimmed and balanced text that is not split further. -/
structure IsPiece (separator : Char) (piece : List Char) : Prop where
  filled : piece ≠ []
  trimmed : Text.trim piece = piece
  balanced : isBalanced piece = true
  whole : splitOutside separator piece = [piece]

/-- The pieces of a cut text that are kept, trimmed. -/
def kept (raws : List (List Char)) : List (List Char) :=
  raws.flatMap fun piece => if (Text.trim piece).isEmpty then [] else [Text.trim piece]

theorem splitOutside_eq_kept (separator : Char) (text : List Char) :
    splitOutside separator text = kept ((cutOutside separator 0 '\x00' text).1 ::
      (cutOutside separator 0 '\x00' text).2) :=
  splitOutside_eq_flatMap separator text

theorem kept_cons_of_trim {raw : List Char} (empty : Text.trim raw = []) (raws : List (List Char)) :
    kept (raw :: raws) = kept raws := by
  simp [kept, empty]

theorem kept_cons_of_filled {raw : List Char} (filled : Text.trim raw ≠ [])
    (raws : List (List Char)) : kept (raw :: raws) = Text.trim raw :: kept raws := by
  simp [kept, filled]

theorem IsPiece.tight (h : IsPiece separator piece) : Text.Tight piece := by
  have tight := Text.tight_trim (h.trimmed.symm ▸ h.filled)
  rwa [h.trimmed] at tight

/-- A piece is cut nowhere: each cut would have taken a character from it. -/
theorem IsPiece.uncut (h : IsPiece separator piece) :
    (cutOutside separator 0 '\x00' piece).2 = [] := by
  have total := length_cutOutside separator 0 '\x00' piece
  have shorter : (splitOutside separator piece).flatten.length ≤ _ :=
    length_flatten_filter_trim_le ((cutOutside separator 0 '\x00' piece).1 ::
      (cutOutside separator 0 '\x00' piece).2)
  rw [h.whole] at shorter
  simp only [List.flatten_cons, List.flatten_nil, List.append_nil, List.length_append] at shorter
  exact List.eq_nil_of_length_eq_zero (by omega)

/-- A text that is cut nowhere is kept as one. -/
theorem splitOutside_of_uncut (uncut : (cutOutside separator 0 '\x00' s).2 = []) :
    splitOutside separator s = kept [s] := by
  rw [splitOutside_eq_kept, uncut, fst_cutOutside uncut]

/-- A text is split at the first separator behind a balanced text that is cut nowhere. -/
theorem splitOutside_append_cons (edge : IsEdge separator) (balanced : isBalanced s = true)
    (uncut : (cutOutside separator 0 '\x00' s).2 = []) (rest : List Char) :
    splitOutside separator (s ++ separator :: rest) = kept [s] ++ splitOutside separator rest := by
  rw [splitOutside_eq_kept, splitOutside_eq_kept separator rest, cutOutside_append balanced uncut,
    cutOutside_edge edge, if_pos rfl, List.append_nil, kept, kept, kept, ← List.flatMap_append]
  rfl

/-- A balanced text without its outer blanks is a piece if it is cut nowhere and not blank. -/
theorem isPiece_trim (balanced : isBalanced s = true)
    (uncut : (cutOutside separator 0 '\x00' s).2 = []) (filled : Text.trim s ≠ []) :
    IsPiece separator (Text.trim s) where
  filled := filled
  trimmed := (Text.tight_trim filled).trim_eq
  balanced := by rwa [isBalanced_trim]
  whole := by
    obtain ⟨before, after, blank, -, whole⟩ := Text.exists_blanks_trim s
    rw [whole] at uncut
    have same := (Text.tight_trim filled).trim_eq
    have inside := uncut_front (uncut_behind blank uncut)
    rw [splitOutside_of_uncut inside, kept_cons_of_filled (by rwa [same]), same]
    rfl

/-! ## Gaps -/

/-- Blanks and separators. -/
def IsGap (separator : Char) (gap : List Char) : Prop :=
  ∀ c ∈ gap, Text.isBlank c = true ∨ c = separator

namespace IsGap

theorem nil : IsGap separator [] :=
  fun _ mem => absurd mem List.not_mem_nil

theorem of_isBlank (blank : ∀ c ∈ gap, Text.isBlank c = true) : IsGap separator gap :=
  fun c mem => .inl (blank c mem)

theorem append {gap' : List Char} (h : IsGap separator gap) (h' : IsGap separator gap') :
    IsGap separator (gap ++ gap') :=
  fun c mem => (List.mem_append.1 mem).elim (h c) (h' c)

theorem single (separator : Char) : IsGap separator [separator] :=
  fun _ mem => .inr (List.mem_singleton.1 mem)

theorem isEdge (h : IsGap separator gap) (edge : IsEdge separator) : ∀ c ∈ gap, IsEdge c := by
  intro c mem
  rcases h c mem with blank | rfl
  · exact isEdge_of_isBlank blank
  · exact edge

theorem isBalanced (h : IsGap separator gap) (edge : IsEdge separator) :
    isBalanced gap = true := by
  have whole := isBalanced_behind_edges (h.isEdge edge) []
  rwa [List.append_nil] at whole

/-- A gap in front of a text is dropped. -/
theorem splitOutside_append (h : IsGap separator gap) (edge : IsEdge separator) (s : List Char) :
    splitOutside separator (gap ++ s) = splitOutside separator s := by
  induction gap with
  | nil => rfl
  | cons c gap ih =>
    have edges := h.isEdge edge
    unfold IsGap at h
    rw [List.forall_mem_cons] at h edges
    rw [← ih h.2, List.cons_append, splitOutside_eq_kept, splitOutside_eq_kept _ (gap ++ s),
      cutOutside_edge edges.1]
    split
    · exact kept_cons_of_trim rfl _
    · rename_i other
      have blank : ∀ d ∈ [c], Text.isBlank d = true :=
        List.forall_mem_singleton.2 (h.1.resolve_right other)
      have same : ∀ raw, Text.trim (c :: raw) = Text.trim raw := by
        intro raw
        rw [Text.trim, ← List.singleton_append, Text.trimStart_append blank, Text.trim]
      simp only [kept, List.flatMap_cons, same]

/-- The blanks of a gap up to its first separator. -/
theorem exists_cut (h : IsGap separator gap) (mem : separator ∈ gap) :
    ∃ blanks gap', gap = blanks ++ separator :: gap' ∧ separator ∉ blanks ∧
      (∀ c ∈ blanks, Text.isBlank c = true) ∧ IsGap separator gap' := by
  obtain ⟨blanks, gap', rfl, fresh⟩ := List.eq_append_cons_of_mem mem
  refine ⟨blanks, gap', rfl, fresh, fun c inFront => ?_, fun c behind => ?_⟩
  · refine (h c (List.mem_append_left _ inFront)).resolve_right ?_
    rintro rfl
    exact fresh inFront
  · exact h c (List.mem_append_right _ (List.mem_cons_of_mem _ behind))

end IsGap

/-- Blanks without a separator among them are cut nowhere. -/
theorem uncut_of_isBlank (blank : ∀ c ∈ gap, Text.isBlank c = true) (fresh : separator ∉ gap)
    (previous : Char) : (cutOutside separator 0 previous gap).2 = [] := by
  induction gap generalizing previous with
  | nil => rfl
  | cons c gap ih =>
    rw [List.forall_mem_cons] at blank
    rw [List.mem_cons, not_or] at fresh
    rw [cutOutside_edge (isEdge_of_isBlank blank.1), if_neg (Ne.symm fresh.1)]
    exact ih blank.2 fresh.2 _

namespace IsPiece

/-- Blanks behind a piece make no difference. -/
theorem uncut_append (h : IsPiece separator piece) (blank : ∀ c ∈ gap, Text.isBlank c = true)
    (fresh : separator ∉ gap) :
    (cutOutside separator 0 '\x00' (piece ++ gap)).2 = [] ∧ kept [piece ++ gap] = [piece] := by
  have trimmed : Text.trim (piece ++ gap) = piece := by
    have whole := @Text.Tight.trim_append piece [] gap h.tight (by simp) blank
    rwa [List.nil_append] at whole
  constructor
  · rw [cutOutside_append h.balanced h.uncut]
    exact uncut_of_isBlank blank fresh _
  · rw [kept_cons_of_filled (by rw [trimmed]; exact h.filled), trimmed]
    rfl

/-- **A piece is split off at the gap behind it.** -/
theorem splitOutside_append (h : IsPiece separator piece) (edge : IsEdge separator)
    (spaced : IsGap separator gap) (parted : separator ∈ gap) (rest : List Char) :
    splitOutside separator (piece ++ (gap ++ rest)) = piece :: splitOutside separator rest := by
  obtain ⟨blanks, gap', rfl, fresh, blank, spaced'⟩ := spaced.exists_cut parted
  obtain ⟨uncut, same⟩ := h.uncut_append blank fresh
  have balanced := isBalanced_append h.balanced (isBalanced_of_isBlank blank)
  have layout : piece ++ ((blanks ++ separator :: gap') ++ rest) =
      (piece ++ blanks) ++ separator :: (gap' ++ rest) := by simp
  rw [layout, splitOutside_append_cons edge balanced uncut, same, spaced'.splitOutside_append edge]
  rfl

/-- A piece with a gap behind it is the only piece. -/
theorem splitOutside_last (h : IsPiece separator piece) (edge : IsEdge separator)
    (spaced : IsGap separator gap) : splitOutside separator (piece ++ gap) = [piece] := by
  by_cases parted : separator ∈ gap
  · have whole := h.splitOutside_append edge spaced parted []
    rwa [List.append_nil] at whole
  · have blank : ∀ c ∈ gap, Text.isBlank c = true := by
      intro c mem
      refine (spaced c mem).resolve_right ?_
      rintro rfl
      exact parted mem
    obtain ⟨uncut, same⟩ := h.uncut_append blank parted
    rw [splitOutside_of_uncut uncut, same]

end IsPiece

/-! ## Layouts -/

/-- The rest of a text behind what is `before` it is made up of pieces in this order and of gaps
around them, which stand outside of all brackets. Between two pieces there is a separator. -/
inductive LaidOut (separator : Char) : List Char → List (List Char) → List Char → Prop
  | gap {before gap : List Char} (outside : isBalanced before = true)
      (spaced : IsGap separator gap) : LaidOut separator before [] gap
  | piece {before gap piece rest : List Char} {pieces : List (List Char)}
      (outside : isBalanced before = true) (spaced : IsGap separator gap)
      (parted : before ≠ [] → separator ∈ gap)
      (tail : LaidOut separator (before ++ gap ++ piece) pieces rest) :
      LaidOut separator before (piece :: pieces) (gap ++ piece ++ rest)

/-- **A text that is laid out with some pieces is split into them.** -/
theorem LaidOut.splitOutside_eq (h : LaidOut separator before pieces s) (edge : IsEdge separator)
    (each : ∀ piece ∈ pieces, IsPiece separator piece) : splitOutside separator s = pieces := by
  -- Behind a piece the text starts with a gap that parts it from the next one.
  have both : splitOutside separator s = pieces ∧ (before ≠ [] → ∀ piece, IsPiece separator piece →
      splitOutside separator (piece ++ s) = piece :: pieces) := by
    induction h with
    | @gap before gap outside spaced =>
      refine ⟨?_, fun _ piece h => h.splitOutside_last edge spaced⟩
      have dropped := spaced.splitOutside_append edge []
      rwa [List.append_nil] at dropped
    | @piece before gap piece rest pieces outside spaced parted tail ih =>
      rw [List.forall_mem_cons] at each
      have filled : before ++ gap ++ piece ≠ [] := fun empty =>
        each.1.filled (List.append_eq_nil_iff.1 empty).2
      have inner := (ih each.2).2 filled piece each.1
      rw [List.append_assoc gap]
      refine ⟨?_, fun later first h => ?_⟩
      · rw [spaced.splitOutside_append edge, inner]
      · rw [h.splitOutside_append edge spaced (parted later), inner]
  exact both.1

/-- What stands in front of a separator, or at the end of a text, is a piece with blanks around it, or
it is blank and part of the gap. -/
theorem LaidOut.prepend {raw : List Char} {raws : List (List Char)} (edge : IsEdge separator)
    (outside : isBalanced before = true) (spaced : IsGap separator gap)
    (parted : before ≠ [] → separator ∈ gap) (balanced : isBalanced raw = true)
    (tail : ∀ before' gap', isBalanced before' = true → IsGap separator gap' →
      LaidOut separator before' (kept raws) (gap' ++ rest)) :
    LaidOut separator before (kept (raw :: raws)) (gap ++ raw ++ rest) := by
  obtain ⟨front, after, blank, blank', whole⟩ := Text.exists_blanks_trim raw
  by_cases empty : Text.trim raw = []
  · rw [kept_cons_of_trim empty]
    rw [empty] at whole
    refine tail before (gap ++ raw) outside (spaced.append ?_)
    rw [whole]
    exact (IsGap.of_isBlank blank).append (.of_isBlank blank')
  · have spaced' : IsGap separator (gap ++ front) := spaced.append (.of_isBlank blank)
    have parted' : before ≠ [] → separator ∈ gap ++ front := fun later =>
      List.mem_append_left _ (parted later)
    have layout : gap ++ raw ++ rest = (gap ++ front) ++ Text.trim raw ++ (after ++ rest) := by
      conv_lhs => rw [whole]
      simp
    rw [kept_cons_of_filled empty, layout]
    refine .piece outside spaced' parted' (tail _ _ ?_ (.of_isBlank blank'))
    exact isBalanced_append (isBalanced_append outside (spaced'.isBalanced edge))
      (by rwa [isBalanced_trim])

/-- Balanced texts, each behind a separator, are laid out. -/
theorem laidOut_flatMap {raws : List (List Char)} (edge : IsEdge separator)
    (balanced : ∀ raw ∈ raws, isBalanced raw = true) (outside : isBalanced before = true)
    (spaced : IsGap separator gap) :
    LaidOut separator before (kept raws) (gap ++ raws.flatMap (separator :: ·)) := by
  induction raws generalizing before gap with
  | nil =>
    rw [List.flatMap_nil, List.append_nil]
    exact .gap outside spaced
  | cons raw raws ih =>
    rw [List.forall_mem_cons] at balanced
    have layout : gap ++ (raw :: raws).flatMap (separator :: ·) =
        (gap ++ [separator]) ++ raw ++ raws.flatMap (separator :: ·) := by simp
    rw [layout]
    refine LaidOut.prepend edge outside (spaced.append (.single separator))
      (fun _ => List.mem_append_right _ (List.mem_singleton.2 rfl)) balanced.1 ?_
    exact fun before' gap' outside' spaced' => ih balanced.2 outside' spaced'

/-- **A balanced text is laid out with its pieces.** -/
theorem laidOut_splitOutside (edge : IsEdge separator) (balanced : isBalanced s = true) :
    LaidOut separator [] (splitOutside separator s) s := by
  obtain ⟨first, further⟩ := isBalanced_cutOutside edge balanced
  have laidOut := @LaidOut.prepend separator [] [] _ _ _ edge rfl
    .nil (fun later => absurd rfl later) first
    fun before' gap' outside spaced => laidOut_flatMap edge further outside spaced
  rwa [List.nil_append, ← splitOutside_eq_kept, cutOutside_join] at laidOut

/-- The pieces of a balanced text. -/
theorem isPiece_of_mem_splitOutside (edge : IsEdge separator) (balanced : isBalanced s = true) :
    ∀ piece ∈ splitOutside separator s, IsPiece separator piece := by
  obtain ⟨first, further⟩ := isBalanced_cutOutside edge balanced
  intro piece mem
  rw [splitOutside_eq_flatMap, List.mem_flatMap] at mem
  obtain ⟨raw, among, trimmed⟩ := mem
  split at trimmed
  · cases trimmed
  · rename_i filled
    rw [List.isEmpty_iff] at filled
    rw [List.mem_singleton.1 trimmed]
    rcases List.mem_cons.1 among with rfl | later
    · exact isPiece_trim first (uncut_fst separator 0 '\x00' s) filled
    · exact isPiece_trim (further raw later) (uncut_of_mem_cutOutside edge raw later) filled

theorem intercalate_cons (separator : Char) (piece : List Char) (pieces : List (List Char)) :
    [separator].intercalate (piece :: pieces) = piece ++ pieces.flatMap (separator :: ·) := by
  induction pieces generalizing piece with
  | nil => simp [List.intercalate_singleton]
  | cons next pieces ih => rw [List.intercalate_cons_cons, ih]; simp

/-- Pieces behind separators are laid out. -/
theorem laidOut_pieces (edge : IsEdge separator)
    (each : ∀ piece ∈ pieces, IsPiece separator piece) (outside : isBalanced before = true) :
    LaidOut separator before pieces (pieces.flatMap (separator :: ·)) := by
  induction pieces generalizing before with
  | nil => exact .gap outside .nil
  | cons piece pieces ih =>
    rw [List.forall_mem_cons] at each
    have spaced : IsGap separator [separator] := .single separator
    have tail := ih each.2 (isBalanced_append
      (isBalanced_append outside (spaced.isBalanced edge)) each.1.balanced)
    exact .piece outside spaced (fun _ => List.mem_singleton.2 rfl) tail

/-- Pieces with a separator between each two are laid out. -/
theorem laidOut_intercalate (edge : IsEdge separator)
    (each : ∀ piece ∈ pieces, IsPiece separator piece) :
    LaidOut separator [] pieces ([separator].intercalate pieces) := by
  cases pieces with
  | nil => exact .gap rfl .nil
  | cons piece pieces =>
    rw [List.forall_mem_cons] at each
    rw [intercalate_cons]
    exact .piece rfl .nil (fun later => absurd rfl later) (laidOut_pieces edge each.2 each.1.balanced)

/-- The pieces of a balanced text are the only ones that it is laid out with. -/
theorem splitOutside_eq_iff (edge : IsEdge separator) (balanced : isBalanced s = true) :
    splitOutside separator s = pieces ↔
      (∀ piece ∈ pieces, IsPiece separator piece) ∧ LaidOut separator [] pieces s := by
  constructor
  · rintro rfl
    exact ⟨isPiece_of_mem_splitOutside edge balanced, laidOut_splitOutside edge balanced⟩
  · rintro ⟨each, laidOut⟩
    exact laidOut.splitOutside_eq edge each

/-- **Splitting a balanced text drops nothing but the gaps.** What is left are trimmed and balanced
pieces that are not split further, with blanks and separators outside of all brackets between them and
around them, and joined by separators again they are split into the same pieces. -/
theorem splitOutside_lossless {separator : Char} (listed : separator = ',' ∨ separator = '|')
    {text : List Char} (balanced : isBalanced text = true) :
    (∀ piece ∈ splitOutside separator text, IsPiece separator piece) ∧
      LaidOut separator [] (splitOutside separator text) text ∧
      splitOutside separator ([separator].intercalate (splitOutside separator text)) =
        splitOutside separator text := by
  have edge : IsEdge separator := by
    rcases listed with rfl | rfl <;> exact isEdge_mark (by decide)
  have each := isPiece_of_mem_splitOutside edge balanced
  exact ⟨each, laidOut_splitOutside edge balanced,
    (laidOut_intercalate edge each).splitOutside_eq edge each⟩

/-- An arrow, brackets around separators, and separators with nothing between them. -/
theorem splitOutside_lossless_arrow :
    let text := " (a|b)=>c ||\tMap.<k, v=>w>|".toList
    let pieces := ["(a|b)=>c".toList, "Map.<k, v=>w>".toList]
    isBalanced text = true ∧ splitOutside '|' text = pieces ∧
      (∀ piece ∈ pieces, IsPiece '|' piece) ∧ LaidOut '|' [] pieces text ∧
      splitOutside '|' "(a|b)=>c|Map.<k, v=>w>".toList = pieces := by
  intro text pieces
  have balanced : isBalanced text = true := by decide
  have split : splitOutside '|' text = pieces := by decide
  obtain ⟨each, laidOut, again⟩ := splitOutside_lossless (.inr rfl) balanced
  rw [split] at each laidOut again
  exact ⟨balanced, split, each, laidOut, again⟩

end Ambient.TypeExpr
