import Ambient.FunctionTypedef
import Ambient.Proofs.TypeExpr.Patterns
/-!
# Where the signature of a function typedef is cut

A function type is read in two ways. Inside of a type expression the parenthesis behind the word
`function` is followed to the one that closes it. The annotation of a typedef is cut at the last
parenthesis that fits, and the cut counts if the text in front of it is balanced. Only one
parenthesis has a balanced text in front of it, so the second way ends up at the same place.

## Main statements

* `TypeExpr.Nested.isBalanced`: nested texts are balanced.
* `TypeExpr.eq_of_isBalanced`: only one closing bracket has a balanced text in front of it.
* `FunctionTypedef.cutReturn?_eq_some_iff`: a return type is looked for behind the last parenthesis
  that fits.
* `FunctionTypedef.cutSignature?_eq_some_iff`: where the annotation is cut, if it is cut at all.
-/

namespace Ambient

namespace TypeExpr

/-! ## Balanced texts -/

variable {s t rest rest' : List Char}

section OneCharacter

variable {depth : Nat} {previous c : Char}

theorem isBalancedFrom_of_opens (h : role previous c = .opens) (text : List Char) :
    isBalancedFrom depth previous (c :: text) = isBalancedFrom (depth + 1) c text := by
  simp only [isBalancedFrom, h]

theorem isBalancedFrom_of_plain (h : role previous c = .plain) (text : List Char) :
    isBalancedFrom depth previous (c :: text) = isBalancedFrom depth c text := by
  simp only [isBalancedFrom, h]

theorem isBalancedFrom_of_closes (h : role previous c = .closes) (text : List Char) :
    isBalancedFrom (depth + 1) previous (c :: text) = isBalancedFrom depth c text := by
  simp only [isBalancedFrom, h]

theorem isBalancedFrom_of_closes_last (h : role previous c = .closes) (text : List Char) :
    isBalancedFrom 0 previous (c :: text) = false := by
  simp only [isBalancedFrom, h]

end OneCharacter

/-- Behind a text that is balanced from some depth on, what was open before is open. -/
theorem isBalancedFrom_append_add {depth : Nat} {previous : Char}
    (balanced : isBalancedFrom depth previous s = true) (more : Nat) (rest : List Char) :
    isBalancedFrom (depth + more) previous (s ++ rest) =
      isBalancedFrom more (s.getLastD previous) rest := by
  induction s generalizing depth previous with
  | nil =>
    have closed : depth = 0 := by simpa [isBalancedFrom] using balanced
    rw [closed, Nat.zero_add]
    rfl
  | cons c s ih =>
    rw [List.cons_append, List.getLastD_cons]
    cases role : role previous c with
    | opens =>
      rw [isBalancedFrom_of_opens role] at balanced ⊢
      rw [Nat.add_right_comm]
      exact ih balanced
    | plain =>
      rw [isBalancedFrom_of_plain role] at balanced ⊢
      exact ih balanced
    | closes =>
      cases depth with
      | zero =>
        rw [isBalancedFrom_of_closes_last role] at balanced
        cases balanced
      | succ depth =>
        rw [isBalancedFrom_of_closes role] at balanced
        rw [Nat.add_right_comm, isBalancedFrom_of_closes role]
        exact ih balanced

/-- Behind a text that is balanced from some depth on, nothing is open. -/
theorem isBalancedFrom_append {depth : Nat} {previous : Char}
    (balanced : isBalancedFrom depth previous s = true) (rest : List Char) :
    isBalancedFrom depth previous (s ++ rest) =
      isBalancedFrom 0 (s.getLastD previous) rest :=
  isBalancedFrom_append_add balanced 0 rest

/-- The character in front of a text matters only if it is an equals sign. -/
theorem isBalancedFrom_congr {depth : Nat} {previous other : Char} (noEquals : previous ≠ '=')
    (noEquals' : other ≠ '=') (s : List Char) :
    isBalancedFrom depth previous s = isBalancedFrom depth other s := by
  cases s with
  | nil => rfl
  | cons c s =>
    have same : role previous c = role other c := by simp [role, noEquals, noEquals']
    unfold isBalancedFrom
    rw [same]

/-- A balanced text is balanced behind any character: it does not start with a closing bracket. -/
theorem isBalancedFrom_of_isBalanced (h : isBalanced s = true) (previous : Char) :
    isBalancedFrom 0 previous s = true := by
  by_cases equals : previous = '='
  · cases s with
    | nil => rfl
    | cons c s =>
      by_cases angle : c = '>'
      · subst angle
        cases h
      · have same : role previous c = role '\x00' c := by simp [role, angle]
        unfold isBalanced isBalancedFrom at h
        unfold isBalancedFrom
        rwa [same]
  · rwa [isBalancedFrom_congr equals (show '\x00' ≠ '=' by decide)]

/-- A nested text leaves the depth as it was. -/
theorem Nested.isBalancedFrom_append {outside : Char → Prop} (h : Nested outside s) (depth : Nat)
    (previous : Char) (rest : List Char) :
    isBalancedFrom depth previous (s ++ rest) =
      isBalancedFrom depth (s.getLastD previous) rest := by
  induction h generalizing depth previous rest with
  | nil => rfl
  | @plain _ c tail opening closing allowed _ ih =>
    rw [List.cons_append, List.getLastD_cons,
      isBalancedFrom_of_plain (role_plain opening closing previous), ih]
  | @wrap _ o k inner tail opening closing noArrow inside _ ihInside ih =>
    have closes : role (inner.getLastD o) k = .closes :=
      role_closes closing fun angle => getLastD_ne_equals opening (noArrow angle)
    -- One bracket deeper for the text inside, and back to the old depth behind it.
    rw [List.cons_append, isBalancedFrom_of_opens (role_opens opening previous),
      List.append_assoc, ihInside, List.cons_append, isBalancedFrom_of_closes closes, ih,
      getLastD_wrap]

/-- Nested texts are balanced. -/
theorem Nested.isBalanced {outside : Char → Prop} (h : Nested outside s) : isBalanced s = true := by
  have whole := h.isBalancedFrom_append 0 '\x00' []
  rw [List.append_nil] at whole
  exact whole

theorem role_parenthesis (previous : Char) : role previous ')' = .closes :=
  role_closes rfl fun angle => absurd angle (by decide)

/-- A parenthesis that closes nothing unbalances a text. -/
theorem isBalanced_close (balanced : isBalanced s = true) (rest : List Char) :
    isBalanced (s ++ ')' :: rest) = false := by
  unfold isBalanced at balanced ⊢
  rw [isBalancedFrom_append balanced]
  exact isBalancedFrom_of_closes_last (role_parenthesis _) rest

/-- Only one parenthesis has a balanced text in front of it that is closed there. -/
theorem eq_of_isBalanced (balanced : isBalanced s = true) (balanced' : isBalanced t = true)
    (same : s ++ ')' :: rest = t ++ ')' :: rest') : s = t ∧ rest = rest' := by
  -- If one of the two were longer, it would go on with a parenthesis that closes nothing.
  have shorter : ∀ {s t more rest rest' : List Char}, isBalanced s = true → isBalanced t = true →
      t = s ++ more → ')' :: rest = more ++ ')' :: rest' → more = [] := by
    intro s t more rest rest' balanced balanced' longer behind
    cases more with
    | nil => rfl
    | cons c more =>
      cases behind
      rw [longer, isBalanced_close balanced] at balanced'
      cases balanced'
  rcases List.append_eq_append_iff.1 same with ⟨more, longer, behind⟩ | ⟨more, longer, behind⟩
  · have none := shorter balanced balanced' longer behind
    subst none
    cases behind
    exact ⟨by simpa using longer.symm, rfl⟩
  · have none := shorter balanced' balanced longer behind
    subst none
    cases behind
    exact ⟨by simpa using longer, rfl⟩

end TypeExpr

namespace FunctionTypedef

open TypeExpr

/-! ## Cutting -/

section Cutting

variable {text args type : List Char}

theorem cutReturn?_newline (text : List Char) : cutReturn? ('\n' :: text) = none := by
  rw [cutReturn?, if_pos rfl]

/-- A text is cut behind its first character if it can be, and else right there. -/
theorem cutReturn?_cons {c : Char} (noBreak : c ≠ '\n') (text : List Char) :
    cutReturn? (c :: text) =
      match cutReturn? text with
      | some (args, type) => some (c :: args, type)
      | none => if c = ')' then (returnText? text).map fun type => ([], type) else none :=
  if_neg noBreak

/-- **A text is cut at the last parenthesis that a return type follows.** -/
theorem cutReturn?_eq_some_iff : cutReturn? text = some (args, type) ↔
    ∃ after, text = args ++ ')' :: after ∧ '\n' ∉ args ∧ returnText? after = some type ∧
      cutReturn? after = none := by
  induction text generalizing args with
  | nil => simp [cutReturn?]
  | cons c text ih =>
    by_cases noBreak : c = '\n'
    · rw [noBreak, cutReturn?_newline]
      constructor
      · intro cut
        cases cut
      · rintro ⟨after, same, oneLine, -⟩
        cases args with
        | nil => cases same
        | cons d args =>
          cases same
          exact absurd List.mem_cons_self oneLine
    · rw [cutReturn?_cons noBreak]
      cases further : cutReturn? text with
      | some cut =>
        constructor
        · intro same
          cases same
          obtain ⟨after, rfl, oneLine, returns⟩ := ih.1 further
          exact ⟨after, rfl, List.not_mem_cons_of_ne_of_not_mem (Ne.symm noBreak) oneLine, returns⟩
        · rintro ⟨after, same, oneLine, returns, last⟩
          cases args with
          | nil =>
            cases same
            rw [last] at further
            cases further
          | cons d args =>
            cases same
            have inner := ih.2 ⟨after, rfl, List.not_mem_of_not_mem_cons oneLine, returns, last⟩
            rw [inner] at further
            cases further
            rfl
      | none =>
        simp only [Option.ite_none_right_eq_some, Option.map_eq_some_iff]
        constructor
        · rintro ⟨rfl, type', returns, same⟩
          cases same
          exact ⟨text, rfl, List.not_mem_nil, returns, further⟩
        · rintro ⟨after, same, oneLine, returns, last⟩
          cases args with
          | nil =>
            cases same
            exact ⟨rfl, type, returns, rfl⟩
          | cons d args =>
            cases same
            have inner := ih.2 ⟨after, rfl, List.not_mem_of_not_mem_cons oneLine, returns, last⟩
            rw [inner] at further
            cases further

theorem cutClosing?_eq_some_iff :
    cutClosing? text = some args ↔ text = args ++ [')'] ∧ '\n' ∉ args := by
  unfold cutClosing?
  simp only [Option.ite_none_right_eq_some, Option.some.injEq]
  constructor
  · rintro ⟨⟨last, oneLine⟩, rfl⟩
    obtain ⟨front, rfl⟩ := List.getLast?_eq_some_iff.1 last
    rw [List.dropLast_concat] at oneLine ⊢
    exact ⟨rfl, by simpa using oneLine⟩
  · rintro ⟨rfl, oneLine⟩
    rw [List.dropLast_concat]
    exact ⟨⟨by simp, by simpa using oneLine⟩, rfl⟩

end Cutting

/-- How the text behind the arguments is cut: nothing stands there, or a return type without a
parenthesis in it that a further return type follows. -/
inductive CutsReturn : List Char → Option (List Char) → Prop
  | nothing : CutsReturn [] none
  | type {tail type : List Char} (found : returnText? tail = some type)
      (last : cutReturn? tail = none) : CutsReturn tail (some type)

section Signature

variable {blanks inside tail args : List Char} {type? : Option (List Char)}

/-- The cut of the annotation of a typedef that starts like a function type. -/
theorem cutSignature?_call (blank : ∀ c ∈ blanks, Text.isBlank c = true) (text : List Char) :
    cutSignature? ("function".toList ++ (blanks ++ '(' :: text)) =
      match (cutReturn? text).filter fun cut => isBalanced cut.1 with
      | some (args, type) => some (args, some type)
      | none => ((cutClosing? text).filter isBalanced).map fun args => (args, none) := by
  unfold cutSignature?
  rw [Text.dropStart?_append]
  simp only [Option.bind_eq_bind, Option.bind_some]
  rw [Text.trimStart_append blank, Text.trimStart_eq_self (c := '(') rfl rfl]
  rfl

/-- Only what starts like a function type is cut. -/
theorem exists_call_of_cutSignature? {source : List Char} {cut : List Char × Option (List Char)}
    (found : cutSignature? source = some cut) :
    ∃ blanks text, (∀ c ∈ blanks, Text.isBlank c = true) ∧
      source = "function".toList ++ (blanks ++ '(' :: text) := by
  unfold cutSignature? at found
  simp only [Option.bind_eq_bind, Option.bind_eq_some_iff] at found
  obtain ⟨rest, word, found⟩ := found
  obtain ⟨blanks, blank, front⟩ := Text.exists_blanks_trimStart rest
  split at found
  · rename_i text bare
    rw [bare] at front
    exact ⟨blanks, text, blank, by rw [Text.dropStart?_eq_some_iff.1 word, front]⟩
  · cases found

/-- **Where the annotation of a typedef is cut**: at a parenthesis with balanced arguments in front
of it, which stand on one line, and behind it nothing or a return type. -/
theorem cutSignature?_eq_some_iff {source : List Char} :
    cutSignature? source = some (args, type?) ↔
      ∃ blanks tail, (∀ c ∈ blanks, Text.isBlank c = true) ∧
        source = "function".toList ++ (blanks ++ '(' :: (args ++ ')' :: tail)) ∧
        isBalanced args = true ∧ '\n' ∉ args ∧ CutsReturn tail type? := by
  constructor
  · intro cut
    obtain ⟨blanks, text, blank, rfl⟩ := exists_call_of_cutSignature? cut
    rw [cutSignature?_call blank] at cut
    split at cut
    · rename_i args' type found
      cases cut
      obtain ⟨cutReturn, balanced⟩ := Option.filter_eq_some_iff.1 found
      obtain ⟨tail, rfl, oneLine, returns, last⟩ := cutReturn?_eq_some_iff.1 cutReturn
      exact ⟨blanks, tail, blank, rfl, balanced, oneLine, .type returns last⟩
    · obtain ⟨args', found, same⟩ := Option.map_eq_some_iff.1 cut
      cases same
      obtain ⟨cutClosing, balanced⟩ := Option.filter_eq_some_iff.1 found
      obtain ⟨rfl, oneLine⟩ := cutClosing?_eq_some_iff.1 cutClosing
      exact ⟨blanks, [], blank, rfl, balanced, oneLine, .nothing⟩
  · rintro ⟨blanks, tail, blank, rfl, balanced, oneLine, returns⟩
    rw [cutSignature?_call blank]
    cases returns with
    | @type _ type found last =>
      have cut : cutReturn? (args ++ ')' :: tail) = some (args, type) :=
        cutReturn?_eq_some_iff.2 ⟨tail, rfl, oneLine, found, last⟩
      rw [cut, Option.filter_some, if_pos balanced]
    | nothing =>
      -- An earlier parenthesis could be cut at, but the text in front of it is not balanced.
      have noReturn : (cutReturn? (args ++ [')'])).filter (fun cut => isBalanced cut.1) = none := by
        rw [Option.filter_eq_none_iff]
        rintro ⟨args', type⟩ cut balanced'
        obtain ⟨after, same, -, returns, -⟩ := cutReturn?_eq_some_iff.1 cut
        obtain ⟨-, rfl⟩ := eq_of_isBalanced balanced balanced' same
        cases returns
      have closing : cutClosing? (args ++ [')']) = some args :=
        cutClosing?_eq_some_iff.2 ⟨rfl, oneLine⟩
      rw [noReturn, closing, Option.filter_some, if_pos balanced]
      rfl

/-- An annotation on one line without a return type is cut. -/
theorem cutSignature?_closed (balanced : isBalanced inside = true) (oneLine : '\n' ∉ inside) :
    cutSignature? ("function".toList ++ '(' :: (inside ++ [')'])) = some (inside, none) :=
  cutSignature?_eq_some_iff.2
    ⟨[], [], fun _ mem => absurd mem List.not_mem_nil, rfl, balanced, oneLine, .nothing⟩

end Signature

end FunctionTypedef

end Ambient
