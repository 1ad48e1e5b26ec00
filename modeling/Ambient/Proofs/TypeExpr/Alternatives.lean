import Ambient.FunctionTypedef
import Ambient.Proofs.TypeExpr.Bases
import Ambient.Proofs.TypeExpr.Compositional
/-!
# Types as lists of alternatives

Some types are kept as a list of alternatives, each without its mark of optionality, and are
translated one alternative at a time. For unions of names and of generic applications this comes to
the same as translating the whole: the marks leave no trace in a translation, and a union is
translated member by member. What stands in the angle brackets of an application does not matter.

## Main definitions

* `TypeExpr.IsSimple`: a name that is printed, or a generic application.
* `TypeExpr.IsAlternative`: a simple type with marks of optionality around it or not.
* `TypeExpr.IsUnion`: alternatives with bars between them.

## Main statements

* `TypeExpr.IsAlternative.translation_unmarked`: marks leave no trace.
* `TypeExpr.IsUnion.withoutOptionalMark_fst`: taking off the mark of a union leaves a union.
* `TypeExpr.IsUnion.translation_alternatives`: a union is the union of its alternatives.
-/

namespace Ambient.TypeExpr

variable {s : List Char}

/-! ## Simple types -/

/-- A name that is printed, or a generic application. -/
inductive IsSimple : List Char → Prop
  | name {s : List Char} (base : IsBase s) (noDot : s.head? ≠ some '.')
      (printed : Config.isNullish (String.ofList s) = false) : IsSimple s
  | generic {base inner : List Char} (isBase : IsBase base) (noDot : base.head? ≠ some '.')
      (inside : Nested (fun _ => True) inner) (noArrow : inner.getLast? ≠ some '=') :
      IsSimple (base ++ '<' :: (inner ++ ['>']))

/-- A text with a character that no name has does not say that a value may be missing. -/
theorem isNullish_eq_false (tight : Text.Tight s) {c : Char} (mem : c ∈ s)
    (other : isBaseChar c = false) : Config.isNullish (String.ofList s) = false := by
  have apart : ∀ word : String, word.toList.all isBaseChar = true →
      (Text.trimmed (String.ofList s) == word) = false := by
    intro word base
    rw [beq_eq_false_iff_ne]
    rintro same
    rw [Text.trimmed, String.toList_ofList, tight.trim_eq] at same
    rw [← same, String.toList_ofList] at base
    rw [List.all_eq_true.1 base c mem] at other
    cases other
  unfold Config.isNullish
  rw [Bool.or_eq_false_iff]
  exact ⟨apart "null" (by decide), apart "undefined" (by decide)⟩

namespace IsSimple

theorem head? (h : IsSimple s) : ∃ c, s.head? = some c ∧ isBaseChar c = true ∧ c ≠ '.' := by
  have first : ∀ {b rest : List Char}, IsBase b → b.head? ≠ some '.' →
      ∃ c, (b ++ rest).head? = some c ∧ isBaseChar c = true ∧ c ≠ '.' := by
    intro b rest base noDot
    obtain ⟨c, start, -⟩ := base.tight.first
    refine ⟨c, by rw [base.tight.head?_append, start], base.chars c (List.mem_of_head? start), ?_⟩
    rintro rfl
    exact noDot start
  cases h with
  | name base noDot _ =>
    have start := @first s [] base noDot
    rwa [List.append_nil] at start
  | generic isBase noDot inside noArrow => exact first isBase noDot

theorem getLast? (h : IsSimple s) : ∃ c, s.getLast? = some c ∧ (isBaseChar c = true ∨ c = '>') := by
  cases h with
  | name base _ _ =>
    obtain ⟨c, last, -⟩ := base.tight.last
    exact ⟨c, last, .inl (base.chars c (List.mem_of_getLast? last))⟩
  | generic isBase noDot inside noArrow => exact ⟨'>', getLast?_wrapped _ _ _ _, .inr rfl⟩

theorem head?_ne (h : IsSimple s) {c : Char} (other : isBaseChar c = false) :
    s.head? ≠ some c := by
  obtain ⟨d, first, base, -⟩ := h.head?
  rintro start
  cases first.symm.trans start
  rw [base] at other
  cases other

theorem getLast?_ne (h : IsSimple s) {c : Char} (other : isBaseChar c = false) (angle : c ≠ '>') :
    s.getLast? ≠ some c := by
  obtain ⟨d, last, base | rfl⟩ := h.getLast?
  · rintro stop
    cases last.symm.trans stop
    rw [base] at other
    cases other
  · rintro stop
    cases last.symm.trans stop
    exact angle rfl

theorem tight (h : IsSimple s) : Text.Tight s where
  first := by
    obtain ⟨c, first, base, -⟩ := h.head?
    exact ⟨c, first, isBlank_of_isBaseChar base⟩
  last := by
    obtain ⟨c, last, base | rfl⟩ := h.getLast?
    · exact ⟨c, last, isBlank_of_isBaseChar base⟩
    · exact ⟨'>', last, rfl⟩

theorem nested (h : IsSimple s) {outside : Char → Prop}
    (allowed : ∀ c, isBaseChar c = true → outside c) : Nested outside s := by
  cases h with
  | name base _ _ => exact base.nested allowed
  | generic isBase noDot inside noArrow =>
    exact (isBase.nested allowed).append (.wrapped rfl rfl (fun _ => noArrow) inside)

/-- The first bracket is an angle bracket. -/
theorem find?_isOpening_ne (h : IsSimple s) : s.find? isOpening ≠ some '(' := by
  have plain : ∀ {b : List Char}, IsBase b → b.find? isOpening = none := by
    intro b base
    rw [List.find?_eq_none]
    intro c mem
    rw [isOpening_of_isBaseChar (base.chars c mem)]
    exact Bool.false_ne_true
  cases h with
  | name base _ _ =>
    rw [plain base]
    exact nofun
  | generic isBase noDot inside noArrow =>
    rw [List.find?_append, plain isBase, Option.none_or, List.find?_cons_of_pos (by rfl)]
    decide

theorem isNullish_eq (h : IsSimple s) : Config.isNullish (String.ofList s) = false := by
  cases h with
  | name _ _ printed => exact printed
  | generic isBase noDot inside noArrow =>
    have whole := (IsSimple.generic isBase noDot inside noArrow).tight
    exact isNullish_eq_false whole (List.mem_append_right _ List.mem_cons_self) (c := '<') rfl

end IsSimple

/-- A text whose first bracket is no parenthesis is no function type. -/
theorem Signature.read?_eq_none_of_find? (noCall : s.find? isOpening ≠ some '(') :
    Signature.read? s = none := by
  unfold Signature.read?
  cases found : Text.dropStart? "function".toList s with
  | none => rfl
  | some rest =>
    rw [Text.dropStart?_eq_some_iff.1 found, List.find?_append,
      show "function".toList.find? isOpening = none by decide, Option.none_or] at noCall
    simp only [Option.bind_eq_bind, Option.bind_some]
    split
    · rename_i text bare
      -- Blanks are no brackets, so the parenthesis would be the first one.
      have blanks : (rest.takeWhile Text.isBlank).find? isOpening = none := by
        rw [List.find?_eq_none]
        intro c mem opening
        have blank := List.all_eq_true.1 (List.all_takeWhile (p := Text.isBlank)) c mem
        simp only [isOpening, Bool.or_eq_true, beq_iff_eq] at opening
        rcases opening with ((rfl | rfl) | rfl) | rfl <;> cases blank
      rw [← List.takeWhile_append_dropWhile (p := Text.isBlank) (l := rest), List.find?_append,
        blanks, Option.none_or] at noCall
      unfold Text.trimStart at bare
      rw [bare] at noCall
      exact absurd rfl noCall
    · rfl

/-! ## Alternatives -/

/-- A simple type with marks of optionality around it or not. -/
inductive IsAlternative : List Char → Prop
  | plain {s : List Char} (simple : IsSimple s) : IsAlternative s
  | behind {s : List Char} (simple : IsSimple s) : IsAlternative (s ++ ['='])
  | front {s : List Char} (simple : IsSimple s) : IsAlternative ('?' :: s)
  | both {s : List Char} (simple : IsSimple s) : IsAlternative ('?' :: (s ++ ['=']))

theorem tight_equals (tight : Text.Tight s) : Text.Tight (s ++ ['=']) :=
  tight.append ⟨⟨'=', rfl, rfl⟩, ⟨'=', rfl, rfl⟩⟩

theorem tight_question (tight : Text.Tight s) : Text.Tight ('?' :: s) :=
  Text.Tight.append (s := ['?']) ⟨⟨'?', rfl, rfl⟩, ⟨'?', rfl, rfl⟩⟩ tight

namespace IsAlternative

theorem tight (h : IsAlternative s) : Text.Tight s := by
  cases h with
  | plain simple => exact simple.tight
  | behind simple => exact tight_equals simple.tight
  | front simple => exact tight_question simple.tight
  | both simple => exact tight_question (tight_equals simple.tight)

theorem nested (h : IsAlternative s) {outside : Char → Prop}
    (allowed : ∀ c, isBaseChar c = true → outside c) (question : outside '?')
    (equals : outside '=') : Nested outside s := by
  have behind : Nested outside ['='] := .plain rfl rfl equals .nil
  cases h with
  | plain simple => exact simple.nested allowed
  | behind simple => exact (simple.nested allowed).append behind
  | front simple => exact .plain rfl rfl question (simple.nested allowed)
  | both simple => exact .plain rfl rfl question ((simple.nested allowed).append behind)

theorem nested_ne (h : IsAlternative s) {separator : Char} (base : isBaseChar separator = false)
    (question : '?' ≠ separator) (equals : '=' ≠ separator) : Nested (· ≠ separator) s :=
  h.nested (fun _ char => ne_of_isBaseChar char base) question equals

theorem nested_anywhere (h : IsAlternative s) : Nested (fun _ => True) s :=
  h.nested (fun _ _ => trivial) trivial trivial

theorem find?_isOpening_ne (h : IsAlternative s) : s.find? isOpening ≠ some '(' := by
  have behind : ∀ {t : List Char}, IsSimple t → (t ++ ['=']).find? isOpening ≠ some '(' := by
    intro t simple
    rw [List.find?_append, show ['='].find? isOpening = none by rfl, Option.or_none]
    exact simple.find?_isOpening_ne
  cases h with
  | plain simple => exact simple.find?_isOpening_ne
  | behind simple => exact behind simple
  | front simple => exact simple.find?_isOpening_ne
  | both simple => exact behind simple

/-- What stands at the front of an alternative. -/
theorem head? (h : IsAlternative s) :
    ∃ c, s.head? = some c ∧ (isBaseChar c = true ∨ c = '?') ∧ c ≠ '.' := by
  cases h with
  | plain simple =>
    obtain ⟨c, first, base, noDot⟩ := simple.head?
    exact ⟨c, first, .inl base, noDot⟩
  | behind simple =>
    obtain ⟨c, first, base, noDot⟩ := simple.head?
    exact ⟨c, (simple.tight.head?_append _).trans first, .inl base, noDot⟩
  | front | both => exact ⟨'?', rfl, .inr rfl, by decide⟩

/-- What stands at the end of an alternative. -/
theorem getLast? (h : IsAlternative s) : ∃ c, s.getLast? = some c ∧ c ≠ ']' := by
  cases h with
  | plain simple =>
    obtain ⟨c, last, -⟩ := simple.tight.last
    refine ⟨c, last, ?_⟩
    rintro rfl
    exact simple.getLast?_ne rfl (by decide) last
  | @front t simple =>
    obtain ⟨c, last, -⟩ := simple.tight.last
    refine ⟨c, (simple.tight.getLast?_append ['?']).trans last, ?_⟩
    rintro rfl
    exact simple.getLast?_ne rfl (by decide) last
  | behind simple => exact ⟨'=', List.getLast?_concat, by decide⟩
  | @both t simple =>
    refine ⟨'=', ?_, by decide⟩
    rw [← List.cons_append, List.getLast?_concat]

/-- `?` in front of an alternative is a mark. -/
theorem exists_of_front (h : IsAlternative s) (first : s.head? = some '?') :
    ∃ t, s = '?' :: t ∧ IsAlternative t := by
  cases h with
  | plain simple => exact absurd first (simple.head?_ne rfl)
  | behind simple =>
    rw [simple.tight.head?_append] at first
    exact absurd first (simple.head?_ne rfl)
  | @front t simple => exact ⟨t, rfl, .plain simple⟩
  | @both t simple => exact ⟨t ++ ['='], rfl, .behind simple⟩

/-- An equals sign behind an alternative is a mark. -/
theorem exists_of_behind (h : IsAlternative s) (last : s.getLast? = some '=') :
    ∃ t, s = t ++ ['='] ∧ IsAlternative t := by
  cases h with
  | plain simple => exact absurd last (simple.getLast?_ne rfl (by decide))
  | @behind t simple => exact ⟨t, rfl, .plain simple⟩
  | @front t simple =>
    have inner := (simple.tight.getLast?_append ['?']).symm.trans last
    exact absurd inner (simple.getLast?_ne rfl (by decide))
  | @both t simple => exact ⟨'?' :: t, rfl, .front simple⟩

theorem isNullish_eq (h : IsAlternative s) : Config.isNullish (String.ofList s) = false := by
  have tight := h.tight
  cases h with
  | plain simple => exact simple.isNullish_eq
  | behind simple => exact isNullish_eq_false tight (c := '=') (by simp) rfl
  | front | both => exact isNullish_eq_false tight (c := '?') List.mem_cons_self rfl

/-- An alternative without its mark is an alternative. -/
theorem unmarked (h : IsAlternative s) : IsAlternative (withoutOptionalMark s).1 := by
  by_cases question : s.head? = some '?'
  · obtain ⟨t, rfl, bare⟩ := h.exists_of_front question
    rw [withoutOptionalMark_cons bare.tight]
    exact bare
  · by_cases equals : s.getLast? = some '='
    · obtain ⟨t, rfl, bare⟩ := h.exists_of_behind equals
      rw [bare.tight.head?_append] at question
      rw [withoutOptionalMark_concat bare.tight question]
      exact bare
    · rw [withoutOptionalMark_eq_self h.tight question equals]
      exact h

end IsAlternative

/-! ## Unions -/

/-- Alternatives with bars between them. -/
structure IsUnion (pieces : List (List Char)) (s : List Char) : Prop where
  joined : Joined '|' pieces s
  each : ∀ piece ∈ pieces, IsAlternative piece

namespace IsUnion

variable {pieces : List (List Char)}

theorem single (h : IsAlternative s) : IsUnion [s] s where
  joined := .single s
  each := List.forall_mem_singleton.2 h

theorem cons {piece : List Char} (h : IsAlternative piece) (before after : Nat)
    (union : IsUnion pieces s) :
    IsUnion (piece :: pieces) (piece ++ Text.pad before ++ '|' :: (Text.pad after ++ s)) where
  joined := .cons piece before after union.joined
  each := List.forall_mem_cons.2 ⟨h, union.each⟩

theorem splitOutside_eq (h : IsUnion pieces s) : splitOutside '|' s = pieces := by
  refine h.joined.splitOutside_eq ?_ (fun piece mem => (h.each piece mem).tight) rfl rfl (by decide)
  exact fun piece mem => (h.each piece mem).nested_ne rfl (by decide) (by decide)

/-- What stands at the front of a union. -/
theorem head? (h : IsUnion pieces s) :
    ∃ c, s.head? = some c ∧ (isBaseChar c = true ∨ c = '?') ∧ c ≠ '.' :=
  h.joined.head? fun piece mem => (h.each piece mem).head?

/-- What stands at the end of a union. -/
theorem getLast? (h : IsUnion pieces s) :
    ∃ c, s.getLast? = some c ∧ Text.isBlank c = false ∧ c ≠ ']' := by
  refine h.joined.getLast? fun piece mem => ?_
  obtain ⟨c, last, other⟩ := (h.each piece mem).getLast?
  obtain ⟨d, last', solid⟩ := (h.each piece mem).tight.last
  cases last.symm.trans last'
  exact ⟨c, last, solid, other⟩

theorem tight (h : IsUnion pieces s) : Text.Tight s where
  first := by
    obtain ⟨c, first, base | rfl, -⟩ := h.head?
    · exact ⟨c, first, isBlank_of_isBaseChar base⟩
    · exact ⟨'?', first, rfl⟩
  last := by
    obtain ⟨c, last, solid, -⟩ := h.getLast?
    exact ⟨c, last, solid⟩

theorem nested_comma (h : IsUnion pieces s) : Nested (· ≠ ',') s :=
  h.joined.nested (fun piece mem => (h.each piece mem).nested_ne rfl (by decide) (by decide))
    (by decide) (by decide) rfl rfl

/-- The first bracket is an angle bracket. -/
theorem find?_isOpening_ne (h : IsUnion pieces s) : s.find? isOpening ≠ some '(' := by
  obtain ⟨joined, each⟩ := h
  have blank : ∀ n, (Text.pad n).find? isOpening = none := by
    intro n
    rw [List.find?_eq_none]
    intro c mem
    rw [List.eq_of_mem_replicate mem]
    decide
  induction joined with
  | single piece => exact (each piece List.mem_cons_self).find?_isOpening_ne
  | @cons piece before after pieces rest tail ih =>
    rw [List.forall_mem_cons] at each
    rw [List.find?_append, List.find?_append, blank, Option.or_none,
      List.find?_cons_of_neg (by decide), List.find?_append, blank, Option.none_or]
    cases found : piece.find? isOpening with
    | none => exact ih each.2
    | some c =>
      rw [Option.some_or, ← found]
      exact each.1.find?_isOpening_ne

/-- A union of several alternatives has a bar between the first two. -/
theorem exists_bar {first second : List Char} {more : List (List Char)}
    (h : IsUnion (first :: second :: more) s) :
    ∃ n rest, s = first ++ (Text.pad n ++ '|' :: rest) := by
  cases h.joined with
  | cons _ before after tail => exact ⟨before, _, List.append_assoc _ _ _⟩

/-- Taking off the mark of a union leaves a union. -/
theorem withoutOptionalMark_fst (h : IsUnion pieces s) :
    ∃ pieces', IsUnion pieces' (withoutOptionalMark s).1 := by
  by_cases question : s.head? = some '?'
  · obtain ⟨first, rest, after, rfl, rfl, exchange⟩ := h.joined.exists_first
    have each := h.each
    rw [List.forall_mem_cons] at each
    rw [each.1.tight.head?_append] at question
    obtain ⟨t, rfl, bare⟩ := each.1.exists_of_front question
    have left : IsUnion (t :: rest) (t ++ after) := by
      refine ⟨exchange t, ?_⟩
      rw [List.forall_mem_cons]
      exact ⟨bare, each.2⟩
    rw [List.cons_append, withoutOptionalMark_cons left.tight]
    exact ⟨_, left⟩
  · by_cases equals : s.getLast? = some '='
    · obtain ⟨front, last, before, rfl, rfl, exchange⟩ := h.joined.exists_last
      have each := h.each
      have alternative := each last (List.mem_append_right front List.mem_cons_self)
      rw [alternative.tight.getLast?_append] at equals
      obtain ⟨t, rfl, bare⟩ := alternative.exists_of_behind equals
      have left : IsUnion (front ++ [t]) (before ++ t) := by
        refine ⟨exchange t, fun piece mem => ?_⟩
        rcases List.mem_append.1 mem with inFront | isLast
        · exact each piece (List.mem_append_left _ inFront)
        · rw [List.mem_singleton.1 isLast]
          exact bare
      have noMark : (before ++ t).head? ≠ some '?' := by
        rwa [← List.append_assoc, left.tight.head?_append] at question
      rw [← List.append_assoc, withoutOptionalMark_concat left.tight noMark]
      exact ⟨_, left⟩
    · rw [withoutOptionalMark_eq_self h.tight question equals]
      exact ⟨pieces, h⟩

/-- All pieces of a union are printed. -/
theorem printedNames_pieces (h : IsUnion pieces s) :
    Config.printedNames (pieces.map String.ofList) = pieces.map String.ofList := by
  unfold Config.printedNames
  rw [List.filter_eq_self, List.forall_mem_map]
  intro piece mem
  rw [(h.each piece mem).isNullish_eq]
  rfl

theorem alternatives_eq (h : IsUnion pieces s) :
    FunctionTypedef.alternatives s = (pieces.map fun piece => (withoutOptionalMark piece).1).map
      String.ofList := by
  rw [FunctionTypedef.alternatives, h.splitOutside_eq, List.map_map]
  rfl

theorem alternatives_ne_nil (h : IsUnion pieces s) : FunctionTypedef.alternatives s ≠ [] := by
  rw [h.alternatives_eq]
  intro empty
  exact h.joined.ne_nil (List.map_eq_nil_iff.1 (List.map_eq_nil_iff.1 empty))

/-- All alternatives of a union are printed. -/
theorem printedNames_alternatives (h : IsUnion pieces s) :
    Config.printedNames (FunctionTypedef.alternatives s) = FunctionTypedef.alternatives s := by
  unfold Config.printedNames
  rw [List.filter_eq_self, h.alternatives_eq, List.forall_mem_map, List.forall_mem_map]
  intro piece mem
  rw [(h.each piece mem).unmarked.isNullish_eq]
  rfl

/-- No alternative of a union is the bare word `undefined`. -/
theorem allowsUndefined_eq (h : IsUnion pieces s) :
    Annotation.allowsUndefined ⟨FunctionTypedef.alternatives s⟩ = false := by
  have printed := h.printedNames_alternatives
  unfold Config.printedNames at printed
  rw [List.filter_eq_self] at printed
  unfold Annotation.allowsUndefined
  rw [List.any_eq_false]
  intro name mem same
  have kept := printed name mem
  rw [eq_of_beq same] at kept
  exact absurd kept (by decide)

end IsUnion

/-! ## Translations -/

section Translations

variable {c : Config} (names : ∀ key ∈ c.typeReplacements.keys, IsPath key.toList)

include names

/-- A mark of an alternative leaves no trace in its translation. -/
theorem IsAlternative.translation_of_mark (h : IsAlternative s) {t : List Char} {mark : Char}
    (mem : mark ∈ s) (other : isBaseChar mark = false) (long : 2 ≤ s.length)
    (noGeneric : cutGeneric? s = none) (found : withoutMark? s = some t) :
    c.translation s = c.translation t := by
  have noBracket : s.getLast? ≠ some ']' := by
    obtain ⟨d, last, apart⟩ := h.getLast?
    rintro stop
    cases last.symm.trans stop
    exact apart rfl
  have noInside : ∀ o k, isBaseChar o = false → o ≠ '?' → insideBrackets? o k s = none := by
    intro o k bracket noMark
    obtain ⟨d, first, base, -⟩ := h.head?
    obtain ⟨rest, rfl⟩ := List.head?_eq_some_iff.1 first
    refine insideBrackets?_eq_none_of_head ?_
    rintro rfl
    rcases base with base | rfl
    · rw [base] at bracket
      cases bracket
    · exact noMark rfl
  have unclaimed : Form.Unclaimed s := ⟨elementOf?_eq_none noBracket noGeneric, noGeneric,
    Signature.read?_eq_none_of_find? h.find?_isOpening_ne,
    isArrayWord_eq_false mem (isPathChar_eq_false other)⟩
  have single : splitOutside '|' s = [s] :=
    splitOutside_single (h.nested_ne rfl (by decide) (by decide)) h.tight rfl rfl (by decide)
  have form := unclaimed.of_marked single (noInside '(' ')' rfl (by decide))
    (noInside '\x7b' '\x7d' rfl (by decide)) found
  exact Config.translation_marked h.tight.trim_eq
    (DocType.replacement?_eq_none names mem (isPathChar_eq_false other) long) form

/-- An alternative is translated as it is without its mark. -/
theorem IsAlternative.translation_unmarked (h : IsAlternative s) :
    c.translation (withoutOptionalMark s).1 = c.translation s := by
  by_cases question : s.head? = some '?'
  · obtain ⟨t, rfl, bare⟩ := h.exists_of_front question
    have long := Text.two_le_length_cons bare.tight.ne_nil '?'
    have noGeneric : cutGeneric? ('?' :: t) = none :=
      cutGeneric?_append_eq_none (Nested.nil : Nested (fun _ => True) []) rfl rfl (by decide)
    rw [withoutOptionalMark_cons bare.tight, h.translation_of_mark names List.mem_cons_self rfl long
      noGeneric (withoutMark?_optional bare.tight.ne_nil)]
  · by_cases equals : s.getLast? = some '='
    · obtain ⟨t, rfl, bare⟩ := h.exists_of_behind equals
      have long := Text.two_le_length_concat bare.tight.ne_nil '='
      have noGeneric : cutGeneric? (t ++ ['=']) = none :=
        cutGeneric?_append_eq_none bare.nested_anywhere rfl rfl (by decide)
      rw [bare.tight.head?_append] at question
      have noRequired : t.head? ≠ some '!' := by
        obtain ⟨d, first, base, -⟩ := bare.head?
        rintro start
        cases first.symm.trans start
        rcases base with base | base <;> cases base
      rw [withoutOptionalMark_concat bare.tight question,
        h.translation_of_mark names (List.mem_append_right t List.mem_cons_self) rfl long noGeneric
          (withoutMark?_equals bare.tight question noRequired)]
    · rw [withoutOptionalMark_eq_self h.tight question equals]

namespace IsUnion

variable {pieces : List (List Char)}

/-- A union is translated piece by piece. -/
theorem translation_pieces (h : IsUnion pieces s) :
    c.translation s = Text.joinWith "|" (pieces.map c.translation) := by
  match pieces, h with
  | [], h => exact absurd rfl h.joined.ne_nil
  | [piece], h =>
    cases h.joined with
    | single => rfl
    | cons _ _ _ tail => exact absurd rfl tail.ne_nil
  | first :: second :: more, h =>
    obtain ⟨n, rest, whole⟩ := h.exists_bar
    have alternative := h.each first List.mem_cons_self
    have bar : '|' ∈ s := by
      rw [whole]
      exact List.mem_append_right _ (List.mem_append_right _ List.mem_cons_self)
    have long : 2 ≤ s.length := by
      have positive := List.length_pos_iff.2 alternative.tight.ne_nil
      rw [whole, List.length_append, List.length_append, List.length_cons]
      omega
    have noGeneric : cutGeneric? s = none := by
      rw [whole]
      exact cutGeneric?_bar alternative.nested_anywhere n rest
    have noBracket : s.getLast? ≠ some ']' := by
      obtain ⟨d, last, -, apart⟩ := h.getLast?
      rintro stop
      cases last.symm.trans stop
      exact apart rfl
    have unclaimed : Form.Unclaimed s := ⟨elementOf?_eq_none noBracket noGeneric, noGeneric,
      Signature.read?_eq_none_of_find? h.find?_isOpening_ne, isArrayWord_eq_false bar rfl⟩
    have free := DocType.replacement?_eq_none names bar rfl long
    rw [Config.translation_union h.tight.trim_eq free (unclaimed.of_union h.splitOutside_eq)]

/-- **A union is the union of its alternatives**, each without its mark. -/
theorem translation_alternatives (h : IsUnion pieces s) :
    c.translation s = Text.joinWith "|" ((FunctionTypedef.alternatives s).map fun alternative =>
      c.translation alternative.toList) := by
  rw [h.translation_pieces names, h.alternatives_eq, List.map_map, List.map_map]
  congr 1
  refine List.map_congr_left fun piece mem => ?_
  rw [Function.comp_apply, Function.comp_apply, String.toList_ofList,
    (h.each piece mem).translation_unmarked names]

end IsUnion

end Translations

end Ambient.TypeExpr
