import Ambient.TypeExpr.Bracket
import Ambient.Proofs.Text
/-!
# Texts with nesting brackets

The scanners of type expressions count brackets from left to right. A text whose brackets nest leaves
the count as it found it, so a scanner that comes to such a text passes over it, and what it does
afterwards depends on what follows only. This is the one fact that the laws of cutting and splitting
rest on.

## Main definitions

* `TypeExpr.Nested`: texts whose brackets nest, with a class of characters outside of all brackets.
* `TypeExpr.Joined`: pieces with a separator and spaces between each two.

## Main statements

* `TypeExpr.Nested.untilClose?_append`, `TypeExpr.Nested.cutOutside_append`: the scanners pass over
  nested texts.
* `TypeExpr.Nested.untilClose?_close`: the text inside a pair of brackets is found.
* `TypeExpr.Joined.splitOutside_eq`: splitting undoes joining.
-/

namespace Ambient.TypeExpr

/-! ## Roles -/

theorem isOpening_eq_false_of_isClosing {c : Char} (closing : isClosing c = true) :
    isOpening c = false := by
  simp only [isClosing, Bool.or_eq_true, beq_iff_eq] at closing
  rcases closing with ((rfl | rfl) | rfl) | rfl <;> rfl

theorem role_opens {c : Char} (opening : isOpening c = true) (previous : Char) :
    role previous c = .opens := by
  simp [role, opening]

theorem role_closes {c : Char} (closing : isClosing c = true) {previous : Char}
    (noArrow : c = '>' → previous ≠ '=') : role previous c = .closes := by
  have notOpening := isOpening_eq_false_of_isClosing closing
  have notArrow : ¬(c = '>' ∧ previous = '=') := fun ⟨angle, equals⟩ => noArrow angle equals
  simp [role, notOpening, notArrow, closing]

theorem role_plain {c : Char} (opening : isOpening c = false) (closing : isClosing c = false)
    (previous : Char) : role previous c = .plain := by
  simp [role, opening, closing]

/-! ## One character -/

section OneCharacter

variable {depth : Nat} {previous c : Char}

theorem untilClose?_of_opens (h : role previous c = .opens) (text : List Char) :
    untilClose? depth previous (c :: text) =
      (untilClose? (depth + 1) c text).map fun found => (c :: found.1, found.2) := by
  simp only [untilClose?, h]

theorem untilClose?_of_plain (h : role previous c = .plain) (text : List Char) :
    untilClose? depth previous (c :: text) =
      (untilClose? depth c text).map fun found => (c :: found.1, found.2) := by
  simp only [untilClose?, h]

theorem untilClose?_of_closes (h : role previous c = .closes) (text : List Char) :
    untilClose? (depth + 1) previous (c :: text) =
      (untilClose? depth c text).map fun found => (c :: found.1, found.2) := by
  simp only [untilClose?, h]

theorem untilClose?_of_closes_last (h : role previous c = .closes) (text : List Char) :
    untilClose? 0 previous (c :: text) = some ([], text) := by
  simp only [untilClose?, h]

theorem cutOutside_of_not_cutsAt {separator : Char} {depth : Int}
    (h : cutsAt separator depth c = false) (text : List Char) :
    cutOutside separator depth previous (c :: text) =
      (c :: (cutOutside separator (depthAfter depth (role previous c)) c text).1,
        (cutOutside separator (depthAfter depth (role previous c)) c text).2) := by
  simp [cutOutside, h]

theorem cutOutside_of_cutsAt {separator : Char} {depth : Int}
    (h : cutsAt separator depth c = true) (text : List Char) :
    cutOutside separator depth previous (c :: text) =
      ([], (cutOutside separator (depthAfter depth (role previous c)) c text).1 ::
        (cutOutside separator (depthAfter depth (role previous c)) c text).2) := by
  simp [cutOutside, h]

end OneCharacter

/-! ## Nested texts -/

/-- Texts whose brackets nest, where the characters outside of all brackets are of a given class. A
pair of angle brackets does not end in an arrow. -/
inductive Nested : (Char → Prop) → List Char → Prop
  | nil {outside : Char → Prop} : Nested outside []
  | plain {outside : Char → Prop} {c : Char} {rest : List Char} (opening : isOpening c = false)
      (closing : isClosing c = false) (allowed : outside c) (tail : Nested outside rest) :
      Nested outside (c :: rest)
  | wrap {outside : Char → Prop} {o k : Char} {inner rest : List Char} (opening : isOpening o = true)
      (closing : isClosing k = true) (noArrow : k = '>' → inner.getLast? ≠ some '=')
      (inside : Nested (fun _ => True) inner) (tail : Nested outside rest) :
      Nested outside (o :: (inner ++ k :: rest))

namespace Nested

variable {outside outside' : Char → Prop} {s t : List Char}

theorem mono (h : Nested outside s) (sub : ∀ c, outside c → outside' c) : Nested outside' s := by
  induction h with
  | nil => exact .nil
  | plain opening closing allowed tail ih => exact .plain opening closing (sub _ allowed) (ih sub)
  | wrap opening closing noArrow inside tail _ ih =>
    exact .wrap opening closing noArrow inside (ih sub)

theorem anywhere (h : Nested outside s) : Nested (fun _ => True) s :=
  h.mono fun _ _ => trivial

theorem append (h : Nested outside s) (h' : Nested outside t) : Nested outside (s ++ t) := by
  induction h with
  | nil => exact h'
  | plain opening closing allowed tail ih => exact .plain opening closing allowed (ih h')
  | @wrap _ o k inner rest opening closing noArrow inside tail _ ih =>
    have whole := Nested.wrap opening closing noArrow inside (ih h')
    simpa using whole

/-- A text without brackets. -/
theorem of_forall (opening : ∀ c ∈ s, isOpening c = false) (closing : ∀ c ∈ s, isClosing c = false)
    (allowed : ∀ c ∈ s, outside c) : Nested outside s := by
  induction s with
  | nil => exact .nil
  | cons c rest ih =>
    rw [List.forall_mem_cons] at opening closing allowed
    exact .plain opening.1 closing.1 allowed.1 (ih opening.2 closing.2 allowed.2)

/-- A text in a pair of brackets. -/
theorem wrapped {o k : Char} (opening : isOpening o = true) (closing : isClosing k = true)
    (noArrow : k = '>' → s.getLast? ≠ some '=') (h : Nested outside' s) :
    Nested outside (o :: (s ++ [k])) :=
  .wrap opening closing noArrow h.anywhere .nil

theorem pad (space : outside ' ') (n : Nat) : Nested outside (Text.pad n) := by
  refine of_forall ?_ ?_ ?_ <;> intro c mem <;> rw [List.eq_of_mem_replicate mem]
  · rfl
  · rfl
  · exact space

end Nested

/-- The character before a closing bracket is no equals sign if the text inside does not end in
one. -/
theorem getLastD_ne_equals {s : List Char} {o : Char} (opening : isOpening o = true)
    (h : s.getLast? ≠ some '=') : s.getLastD o ≠ '=' := by
  rw [List.getLastD_eq_getLast?]
  cases last : s.getLast? with
  | none =>
    rintro rfl
    cases opening
  | some d =>
    rintro rfl
    exact h last

theorem getLastD_wrap (o k previous : Char) (inner rest : List Char) :
    (o :: (inner ++ k :: rest)).getLastD previous = rest.getLastD k := by
  simp [List.getLastD_eq_getLast?, List.getLast?_cons]

/-! ## Scanning -/

namespace Nested

variable {outside : Char → Prop} {s : List Char}

/-- Looking for the closing bracket passes over a nested text. -/
theorem untilClose?_append (h : Nested outside s) (depth : Nat) (previous : Char)
    (rest : List Char) :
    untilClose? depth previous (s ++ rest) =
      (untilClose? depth (s.getLastD previous) rest).map fun found => (s ++ found.1, found.2) := by
  induction h generalizing depth previous rest with
  | nil => simp
  | @plain _ c tail opening closing allowed _ ih =>
    rw [List.cons_append, untilClose?_of_plain (role_plain opening closing previous), ih,
      Option.map_map, List.getLastD_cons]
    rfl
  | @wrap _ o k inner tail opening closing noArrow inside _ ihInside ih =>
    have closes : role (inner.getLastD o) k = .closes :=
      role_closes closing fun angle => getLastD_ne_equals opening (noArrow angle)
    -- One bracket deeper for the text inside, and back to the old depth behind it.
    rw [List.cons_append, untilClose?_of_opens (role_opens opening previous), List.append_assoc,
      ihInside, List.cons_append, untilClose?_of_closes closes, ih, Option.map_map, Option.map_map,
      Option.map_map, getLastD_wrap]
    congr 1
    funext found
    simp

/-- Looking for separators passes over a nested text, inside of brackets in any case and outside of
them if the separator is not among the characters there. -/
theorem cutOutside_append (h : Nested outside s) {separator : Char} {depth : Int} (deep : 0 ≤ depth)
    (apart : depth = 0 → ∀ c, outside c → c ≠ separator) (previous : Char) (rest : List Char) :
    cutOutside separator depth previous (s ++ rest) =
      (s ++ (cutOutside separator depth (s.getLastD previous) rest).1,
        (cutOutside separator depth (s.getLastD previous) rest).2) := by
  induction h generalizing depth previous rest with
  | nil => simp
  | @plain _ c tail opening closing allowed _ ih =>
    have whole : cutsAt separator depth c = false := by
      by_cases zero : depth = 0
      · simp [cutsAt, apart zero c allowed]
      · simp [cutsAt, zero]
    rw [List.cons_append, cutOutside_of_not_cutsAt whole, role_plain opening closing previous,
      List.getLastD_cons]
    simp only [depthAfter]
    rw [ih deep apart]
    rfl
  | @wrap _ o k inner tail opening closing noArrow inside _ ihInside ih =>
    have closes : role (inner.getLastD o) k = .closes :=
      role_closes closing fun angle => getLastD_ne_equals opening (noArrow angle)
    have whole : cutsAt separator depth o = false := by simp [cutsAt, opening]
    have whole' : cutsAt separator (depth + 1) k = false := by simp [cutsAt, closing]
    have back : depth + 1 - 1 = depth := by omega
    rw [List.cons_append, cutOutside_of_not_cutsAt whole, role_opens opening previous,
      getLastD_wrap]
    simp only [depthAfter]
    rw [List.append_assoc, ihInside (by omega) (fun zero => by omega), List.cons_append,
      cutOutside_of_not_cutsAt whole', closes]
    simp only [depthAfter, back]
    rw [ih deep apart]
    simp

/-- The text inside a pair of brackets is found. -/
theorem untilClose?_close (h : Nested outside s) {o k : Char} (opening : isOpening o = true)
    (closing : isClosing k = true) (noArrow : k = '>' → s.getLast? ≠ some '=') (rest : List Char) :
    untilClose? 0 o (s ++ k :: rest) = some (s, rest) := by
  have closes : role (s.getLastD o) k = .closes :=
    role_closes closing fun angle => getLastD_ne_equals opening (noArrow angle)
  rw [h.untilClose?_append, untilClose?_of_closes_last closes]
  simp

end Nested

/-! ## Texts in brackets -/

theorem length_lt_wrapped (before s after : List Char) (o k : Char) :
    s.length < (before ++ o :: (s ++ k :: after)).length := by
  simp only [List.length_append, List.length_cons]
  omega

theorem getLast?_wrapped (before s : List Char) (o k : Char) :
    (before ++ o :: (s ++ [k])).getLast? = some k := by
  rw [List.getLast?_append, List.getLast?_cons, List.getLast?_concat]
  rfl

/-! ## Joined pieces -/

/-- Pieces with a separator between each two, which may have spaces around it. -/
inductive Joined (separator : Char) : List (List Char) → List Char → Prop
  | single (piece : List Char) : Joined separator [piece] piece
  | cons (piece : List Char) (before after : Nat) {pieces : List (List Char)} {rest : List Char}
      (tail : Joined separator pieces rest) :
      Joined separator (piece :: pieces)
        (piece ++ Text.pad before ++ separator :: (Text.pad after ++ rest))

namespace Joined

variable {separator : Char} {pieces : List (List Char)} {s : List Char}

theorem length_le (h : Joined separator pieces s) :
    ∀ piece ∈ pieces, piece.length ≤ s.length := by
  induction h with
  | single piece => simp
  | cons piece before after tail ih =>
    rw [List.forall_mem_cons]
    refine ⟨by simp, fun other mem => ?_⟩
    have shorter := ih other mem
    simp only [List.length_append, List.length_cons]
    omega

/-- A piece is shorter than the whole in brackets. -/
theorem length_lt_wrapped (h : Joined separator pieces s) (before after : List Char)
    (o k : Char) : ∀ piece ∈ pieces, piece.length < (before ++ o :: (s ++ k :: after)).length :=
  fun piece mem =>
    Nat.lt_of_le_of_lt (h.length_le piece mem) (TypeExpr.length_lt_wrapped before s after o k)

theorem ne_nil (h : Joined separator pieces s) : pieces ≠ [] := by
  cases h <;> exact List.cons_ne_nil _ _

/-- Of several joined pieces each is shorter than the whole. -/
theorem length_lt (h : Joined separator pieces s) (several : 2 ≤ pieces.length) :
    ∀ piece ∈ pieces, piece.length < s.length := by
  cases h with
  | single piece => simp at several
  | cons piece before after tail =>
    rw [List.forall_mem_cons]
    refine ⟨?_, fun other mem => ?_⟩
    · simp only [List.length_append, List.length_cons]
      omega
    · have shorter := tail.length_le other mem
      simp only [List.length_append, List.length_cons]
      omega

/-- Joined nested pieces are nested, with the separator outside of brackets. -/
theorem nested {outside : Char → Prop} (h : Joined separator pieces s)
    (each : ∀ piece ∈ pieces, Nested outside piece) (space : outside ' ')
    (between : outside separator) (opening : isOpening separator = false)
    (closing : isClosing separator = false) : Nested outside s := by
  induction h with
  | single piece => exact each piece List.mem_cons_self
  | @cons piece before after pieces rest tail ih =>
    rw [List.forall_mem_cons] at each
    refine (each.1.append (.pad space before)).append (.plain opening closing between ?_)
    exact (Nested.pad space after).append (ih each.2)

/-- Joined pieces start like the first piece. -/
theorem head? (h : Joined separator pieces s) {P : Char → Prop}
    (each : ∀ piece ∈ pieces, ∃ c, piece.head? = some c ∧ P c) : ∃ c, s.head? = some c ∧ P c := by
  cases h with
  | single piece => exact each _ List.mem_cons_self
  | cons piece before after tail =>
    obtain ⟨c, first, holds⟩ := each piece List.mem_cons_self
    refine ⟨c, ?_, holds⟩
    rw [List.append_assoc, List.head?_append, first]
    rfl

/-- Joined pieces end like the last piece. -/
theorem getLast? (h : Joined separator pieces s) {P : Char → Prop}
    (each : ∀ piece ∈ pieces, ∃ c, piece.getLast? = some c ∧ P c) :
    ∃ c, s.getLast? = some c ∧ P c := by
  induction h with
  | single piece => exact each piece List.mem_cons_self
  | cons piece before after tail ih =>
    rw [List.forall_mem_cons] at each
    obtain ⟨c, last, holds⟩ := ih each.2
    exact ⟨c, Text.getLast?_spaced last _ separator after, holds⟩

/-- The first piece may be exchanged. -/
theorem exists_first (h : Joined separator pieces s) : ∃ first rest after, pieces = first :: rest ∧
    s = first ++ after ∧ ∀ piece, Joined separator (piece :: rest) (piece ++ after) := by
  cases h with
  | single =>
    refine ⟨s, [], [], rfl, (List.append_nil s).symm, fun other => ?_⟩
    rw [List.append_nil]
    exact .single other
  | @cons piece before after pieces rest tail =>
    refine ⟨piece, pieces, Text.pad before ++ separator :: (Text.pad after ++ rest), rfl,
      List.append_assoc _ _ _, fun other => ?_⟩
    rw [← List.append_assoc]
    exact .cons other before after tail

/-- The last piece may be exchanged. -/
theorem exists_last (h : Joined separator pieces s) : ∃ front last before, pieces = front ++ [last] ∧
    s = before ++ last ∧ ∀ piece, Joined separator (front ++ [piece]) (before ++ piece) := by
  induction h with
  | single piece => exact ⟨[], piece, [], rfl, rfl, fun other => .single other⟩
  | @cons piece before after pieces rest tail ih =>
    obtain ⟨front, last, start, rfl, rfl, exchange⟩ := ih
    refine ⟨piece :: front, last, piece ++ Text.pad before ++ separator :: (Text.pad after ++ start),
      rfl, by simp, fun other => ?_⟩
    have whole := Joined.cons piece before after (exchange other)
    simpa using whole

/-- Joining brings in nothing but separators and spaces. -/
theorem not_mem (h : Joined separator pieces s) {c : Char} (each : ∀ piece ∈ pieces, c ∉ piece)
    (noSpace : c ≠ ' ') (noSeparator : c ≠ separator) : c ∉ s := by
  have noPad := Text.not_mem_pad noSpace
  induction h with
  | single piece => exact each piece List.mem_cons_self
  | cons piece before after tail ih =>
    rw [List.forall_mem_cons] at each
    simp only [List.mem_append, List.mem_cons, not_or]
    exact ⟨⟨each.1, noPad before⟩, noSeparator, noPad after, ih each.2⟩

/-- **Splitting undoes joining.** -/
theorem splitOutside_eq (h : Joined separator pieces s)
    (each : ∀ piece ∈ pieces, Nested (· ≠ separator) piece)
    (tight : ∀ piece ∈ pieces, Text.Tight piece) (opening : isOpening separator = false)
    (closing : isClosing separator = false) (noSpace : ' ' ≠ separator) :
    splitOutside separator s = pieces := by
  -- The spaces behind a separator stay in front of the piece after it until the pieces are trimmed.
  have cut : ∀ (previous : Char) (n : Nat),
      ((cutOutside separator 0 previous (Text.pad n ++ s)).1 ::
        (cutOutside separator 0 previous (Text.pad n ++ s)).2).map Text.trim = pieces := by
    induction h with
    | single piece =>
      intro previous n
      rw [List.forall_mem_singleton] at each tight
      have padded := (Nested.pad noSpace n).append each
      have passed := padded.cutOutside_append (Int.le_refl 0) (fun _ c ne => ne) previous []
      rw [List.append_nil] at passed
      have bare := tight.trim_pad n 0
      rw [Text.pad_zero, List.append_nil] at bare
      rw [passed]
      simp [cutOutside, bare]
    | @cons piece before after pieces rest tail ih =>
      intro previous n
      rw [List.forall_mem_cons] at each tight
      have padded := ((Nested.pad noSpace n).append each.1).append
        (.pad noSpace before)
      have passed := padded.cutOutside_append (Int.le_refl 0) (fun _ c ne => ne) previous
        (separator :: (Text.pad after ++ rest))
      have cuts : cutsAt separator 0 separator = true := by simp [cutsAt, opening, closing]
      rw [cutOutside_of_cutsAt cuts, role_plain opening closing] at passed
      have others := ih each.2 tight.2 separator after
      have bare := tight.1.trim_pad n before
      have layout : Text.pad n ++ (piece ++ Text.pad before ++ separator :: (Text.pad after ++ rest))
          = Text.pad n ++ piece ++ Text.pad before ++ separator :: (Text.pad after ++ rest) := by
        simp
      rw [layout, passed, List.map_cons, List.append_nil, bare]
      simp only [depthAfter]
      rw [others]
  unfold splitOutside
  have all := cut '\x00' 0
  rw [Text.pad_zero, List.nil_append] at all
  simp only [all]
  rw [List.filter_eq_self]
  intro piece mem
  simpa using (tight piece mem).ne_nil

end Joined

end Ambient.TypeExpr
