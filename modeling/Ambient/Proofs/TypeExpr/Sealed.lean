import Ambient.Proofs.TypeExpr.Balance
/-!
# Separators outside of brackets

A text is cut where its outermost brackets let it be cut. If several texts with all their separators in
brackets are joined by separators, then the joined text has no other cuts, so the texts can be read off
it. Only the arrow of a function type needs care here, since its `>` closes nothing.

## Main definitions

* `TypeExpr.Sealed`: texts without a separator outside of brackets.

## Main statements

* `TypeExpr.Sealed.append`, `TypeExpr.Sealed.wrap`: sealed texts are put together from sealed texts.
* `TypeExpr.Sealed.eq_of_append`: only one text in front of a separator is sealed.
* `TypeExpr.eq_of_joinWith`: joined texts that are sealed can be told apart.
-/

namespace Ambient

namespace TypeExpr

variable {separator : Char} {s t tail tail' : List Char}

/-! ## Sealed texts -/

/-- A whole text has no say in whether what stands behind it is balanced. -/
theorem Whole.isBalanced_append (h : Whole s) (t : List Char) :
    isBalanced (s ++ t) = isBalanced t := by
  have last : s.getLastD '\x00' ≠ '=' := by
    rw [List.getLastD_eq_getLast?]
    cases found : s.getLast? with
    | none => decide
    | some c =>
      rintro rfl
      exact h.last found
  have balanced := h.balanced
  unfold isBalanced at balanced ⊢
  rw [isBalancedFrom_append balanced, isBalancedFrom_congr last (show '\x00' ≠ '=' by decide)]

/-- Behind a text that closes more brackets than are open, nothing is balanced. -/
theorem isBalancedFrom_append_of_succ {depth : Nat} {previous : Char}
    (balanced : isBalancedFrom (depth + 1) previous s = true) (rest : List Char) :
    isBalancedFrom depth previous (s ++ rest) = false := by
  induction s generalizing depth previous with
  | nil => cases balanced
  | cons c s ih =>
    rw [List.cons_append]
    cases role : role previous c with
    | opens =>
      rw [isBalancedFrom_of_opens role] at balanced ⊢
      exact ih balanced
    | plain =>
      rw [isBalancedFrom_of_plain role] at balanced ⊢
      exact ih balanced
    | closes =>
      rw [isBalancedFrom_of_closes role] at balanced
      cases depth with
      | zero => exact isBalancedFrom_of_closes_last role _
      | succ depth =>
        rw [isBalancedFrom_of_closes role]
        exact ih balanced

/-- A whole text with every separator in brackets. -/
structure Sealed (separator : Char) (s : List Char) : Prop extends Whole s where
  inBrackets : ∀ before after, s = before ++ separator :: after → isBalanced before = false

namespace Sealed

theorem of_not_mem (whole : Whole s) (free : separator ∉ s) : Sealed separator s where
  toWhole := whole
  inBrackets := by
    rintro before after rfl
    exact absurd (List.mem_append_right before List.mem_cons_self) free

theorem append (h : Sealed separator s) (h' : Sealed separator t) : Sealed separator (s ++ t) where
  toWhole := h.toWhole.append h'.toWhole
  inBrackets := by
    intro before after same
    rcases List.append_eq_append_iff.1 same with ⟨more, rfl, behind⟩ | ⟨more, longer, behind⟩
    · rw [h.toWhole.isBalanced_append]
      exact h'.inBrackets more after behind
    · cases more with
      | nil => exact absurd (h'.inBrackets [] after behind.symm) (by decide)
      | cons c more =>
        cases behind
        exact h.inBrackets before more longer

/-- `append` on strings. -/
theorem concat {a b : String} (h : Sealed separator a.toList) (h' : Sealed separator b.toList) :
    Sealed separator (a ++ b).toList := by
  rw [String.toList_append]
  exact h.append h'

/-- A whole text in a pair of brackets. -/
theorem wrap (h : Whole s) {o k : Char} (opening : isOpening o = true) (closing : isClosing k = true)
    (noOpening : isOpening separator = false) (noClosing : isClosing separator = false) :
    Sealed separator (o :: (s ++ [k])) where
  toWhole := h.wrap opening closing
  inBrackets := by
    intro before after same
    cases before with
    | nil =>
      cases same
      rw [noOpening] at opening
      cases opening
    | cons c before =>
      rw [List.cons_append, List.cons.injEq] at same
      obtain ⟨rfl, same⟩ := same
      -- What stands in front of the separator is a part of the text in the brackets.
      obtain ⟨more, rfl⟩ : ∃ more, s = before ++ more := by
        rcases List.append_eq_append_iff.1 same with ⟨more, rfl, behind⟩ | ⟨more, longer, -⟩
        · cases more with
          | nil =>
            cases behind
            rw [noClosing] at closing
            cases closing
          | cons d more =>
            cases more <;> cases behind
        · exact ⟨more, longer⟩
      unfold isBalanced
      rw [isBalancedFrom_of_opens (role_opens opening _), Bool.eq_false_iff]
      intro closed
      have inside := isBalancedFrom_of_isBalanced h.balanced o
      rw [isBalancedFrom_append_of_succ closed] at inside
      cases inside

theorem joinWith (between : String) (h : Sealed separator between.toList) {texts : List String}
    (each : ∀ text ∈ texts, Sealed separator text.toList) :
    Sealed separator (Text.joinWith between texts).toList := by
  induction texts with
  | nil => exact .of_not_mem (show Whole [] by decide) List.not_mem_nil
  | cons first rest ih =>
    rw [List.forall_mem_cons] at each
    by_cases empty : rest = []
    · rw [empty]
      exact each.1
    · rw [Text.joinWith_cons between first empty]
      exact (each.1.concat h).concat (ih each.2)

/-- Only one text in front of a separator, or of the end, is sealed. -/
theorem eq_of_append (h : Sealed separator s) (h' : Sealed separator t)
    (next : ∀ c ∈ tail.head?, c = separator) (next' : ∀ c ∈ tail'.head?, c = separator)
    (same : s ++ tail = t ++ tail') : s = t := by
  have shorter : ∀ {s t tail tail' more : List Char}, Sealed separator s → Sealed separator t →
      (∀ c ∈ tail.head?, c = separator) → t = s ++ more → tail = more ++ tail' → t = s := by
    intro s t tail tail' more h h' next longer behind
    cases more with
    | nil => rwa [List.append_nil] at longer
    | cons c more =>
      obtain rfl := next c (by rw [behind]; rfl)
      have opened := h'.inBrackets s more longer
      rw [h.balanced] at opened
      cases opened
  rcases List.append_eq_append_iff.1 same with ⟨more, longer, behind⟩ | ⟨more, longer, behind⟩
  · exact (shorter h h' next longer behind).symm
  · exact shorter h' h next' longer behind

end Sealed

/-! ## Joined texts -/

/-- Joined texts are the first of them with the others behind separators. -/
theorem toList_joinWith_flatMap (between first : String) (rest : List String) :
    (Text.joinWith between (first :: rest)).toList =
      first.toList ++ rest.flatMap fun next => between.toList ++ next.toList := by
  induction rest generalizing first with
  | nil => exact (List.append_nil _).symm
  | cons next rest ih =>
    rw [Text.joinWith_cons between first (List.cons_ne_nil _ _), String.toList_append,
      String.toList_append, ih, List.flatMap_cons, List.append_assoc, List.append_assoc]

section Joined

variable {between : String} (front : between.toList.head? = some separator) {texts texts' : List String}

include front

theorem head?_flatMap (texts : List String) :
    ∀ c ∈ (texts.flatMap fun next => between.toList ++ next.toList).head?, c = separator := by
  intro c first
  cases texts with
  | nil => cases first
  | cons next rest =>
    rw [List.flatMap_cons, List.append_assoc, List.head?_append, front] at first
    exact (Option.some.inj first).symm

/-- Sealed texts behind separators can be told apart. -/
theorem eq_of_flatMap (each : ∀ text ∈ texts, Sealed separator text.toList)
    (each' : ∀ text ∈ texts', Sealed separator text.toList)
    (same : (texts.flatMap fun next => between.toList ++ next.toList) =
      texts'.flatMap fun next => between.toList ++ next.toList) : texts = texts' := by
  have filled : ∀ {next : String} {rest : List String},
      ((next :: rest).flatMap fun next => between.toList ++ next.toList) ≠ [] := by
    intro next rest empty
    rw [List.flatMap_cons, List.append_eq_nil_iff, List.append_eq_nil_iff] at empty
    rw [empty.1.1] at front
    cases front
  induction texts generalizing texts' with
  | nil =>
    cases texts' with
    | nil => rfl
    | cons next' rest' => exact absurd same.symm filled
  | cons next rest ih =>
    cases texts' with
    | nil => exact absurd same filled
    | cons next' rest' =>
      rw [List.forall_mem_cons] at each each'
      rw [List.flatMap_cons, List.flatMap_cons, List.append_assoc, List.append_assoc,
        List.append_cancel_left_eq] at same
      have heads := each.1.eq_of_append each'.1 (head?_flatMap front rest)
        (head?_flatMap front rest') same
      rw [heads, List.append_cancel_left_eq] at same
      rw [String.toList_inj.1 heads, ih each.2 each'.2 same]

/-- **Joined texts that are sealed can be told apart.** -/
theorem eq_of_joinWith (each : ∀ text ∈ texts, text ≠ "" ∧ Sealed separator text.toList)
    (each' : ∀ text ∈ texts', text ≠ "" ∧ Sealed separator text.toList)
    (same : Text.joinWith between texts = Text.joinWith between texts') : texts = texts' := by
  have filled : ∀ {first : String} {rest : List String}, first ≠ "" →
      Text.joinWith between (first :: rest) ≠ "" := by
    intro first rest filled empty
    have split := toList_joinWith_flatMap between first rest
    rw [empty] at split
    exact filled (String.toList_eq_nil_iff.1 (List.append_eq_nil_iff.1 split.symm).1)
  cases texts with
  | nil =>
    cases texts' with
    | nil => rfl
    | cons first' rest' => exact absurd same.symm (filled (each' first' List.mem_cons_self).1)
  | cons first rest =>
    cases texts' with
    | nil => exact absurd same (filled (each first List.mem_cons_self).1)
    | cons first' rest' =>
      rw [List.forall_mem_cons] at each each'
      have split := congrArg String.toList same
      rw [toList_joinWith_flatMap, toList_joinWith_flatMap] at split
      have heads := each.1.2.eq_of_append each'.1.2 (head?_flatMap front rest)
        (head?_flatMap front rest') split
      rw [heads, List.append_cancel_left_eq] at split
      rw [String.toList_inj.1 heads, eq_of_flatMap front (fun text mem => (each.2 text mem).2)
        (fun text mem => (each'.2 text mem).2) split]

end Joined

/-! ## Texts without separators -/

/-- Literals and names without commas and bars. -/
theorem sealed_of_plain (isSeparator : separator = ',' ∨ separator = '|')
    (h : Whole s ∧ ',' ∉ s ∧ '|' ∉ s) : Sealed separator s := by
  rcases isSeparator with rfl | rfl
  · exact .of_not_mem h.1 h.2.1
  · exact .of_not_mem h.1 h.2.2

theorem sealed_of_isPath (path : IsPath s) (other : isPathChar separator = false) :
    Sealed separator s := by
  have nested : Nested (fun _ => True) s := path.nested fun _ _ => trivial
  refine .of_not_mem ⟨nested.isBalanced, fun last => ?_⟩ (path.not_mem other)
  exact path.not_mem rfl (List.mem_of_getLast? last)

end TypeExpr

end Ambient
