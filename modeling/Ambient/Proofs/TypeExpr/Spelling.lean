import Ambient.Proofs.TypeExpr.Grammar
import Ambient.Proofs.TypeExpr.Patterns
/-!
# What the spellings of documented types look like

All spellings of trees share an outline: their brackets nest, no commas stand outside of brackets and
bars stand there in unions only, and both ends are solid. On that outline the patterns act in a
foreseeable way.

## Main definitions

* `DocType.Regular`: the outline of a spelling.
* `DocType.Item`: the outline of a piece between commas.

## Main statements

* `DocType.Spells.induction`: induction over spellings, on their length.
* `DocType.Spells.regular`: every spelling has that outline.
-/

namespace Ambient.DocType

open TypeExpr

/-! ## The outline -/

/-- A character that a spelling may start with. -/
def startsType (c : Char) : Bool :=
  isWordChar c || c == '*' || c == '(' || c == '\x7b' || c == '?' || c == '!'

/-- A character that a spelling may end in. -/
def endsType (c : Char) : Bool :=
  isWordChar c || c == '*' || isClosing c

theorem isBlank_of_startsType {c : Char} (h : startsType c = true) : Text.isBlank c = false := by
  simp only [startsType, Bool.or_eq_true, beq_iff_eq] at h
  rcases h with ((((word | rfl) | rfl) | rfl) | rfl) | rfl
  · exact isBlank_of_isPathChar (isPathChar_of_isWordChar word)
  all_goals rfl

theorem isBlank_of_endsType {c : Char} (h : endsType c = true) : Text.isBlank c = false := by
  simp only [endsType, isClosing, Bool.or_eq_true, beq_iff_eq] at h
  rcases h with (word | rfl) | ((rfl | rfl) | rfl) | rfl
  · exact isBlank_of_isPathChar (isPathChar_of_isWordChar word)
  all_goals rfl

/-- What may stand in a spelling outside of brackets. -/
def Outside (t : DocType) (c : Char) : Prop :=
  c ≠ ',' ∧ (c = '|' → t.isUnion = true)

/-- The outline of a spelling. -/
structure Regular (t : DocType) (s : List Char) : Prop where
  nested : Nested t.Outside s
  first : ∃ c, s.head? = some c ∧ startsType c = true
  last : ∃ c, s.getLast? = some c ∧ endsType c = true
  oneLine : '\n' ∉ s

namespace Regular

variable {t u : DocType} {s r : List Char}

theorem tight (h : Regular t s) : Text.Tight s where
  first := by
    obtain ⟨c, first, starts⟩ := h.first
    exact ⟨c, first, isBlank_of_startsType starts⟩
  last := by
    obtain ⟨c, last, ends⟩ := h.last
    exact ⟨c, last, isBlank_of_endsType ends⟩

theorem getLast?_ne (h : Regular t s) {c : Char} (other : endsType c = false) :
    s.getLast? ≠ some c := by
  obtain ⟨d, last, ends⟩ := h.last
  rw [last]
  rintro same
  cases same
  rw [ends] at other
  cases other

theorem head?_ne (h : Regular t s) {c : Char} (other : startsType c = false) :
    s.head? ≠ some c := by
  obtain ⟨d, first, starts⟩ := h.first
  rw [first]
  rintro same
  cases same
  rw [starts] at other
  cases other

/-- A text in brackets, with a path in front or not. -/
theorem wrapped (before : List Char) {inner : List Char} {o k : Char} {outside : Char → Prop}
    (path : ∀ c ∈ before, isPathChar c = true)
    (first : ∃ c, (before ++ [o]).head? = some c ∧ startsType c = true)
    (opening : isOpening o = true) (closing : isClosing k = true)
    (noArrow : k = '>' → inner.getLast? ≠ some '=') (nested : Nested outside inner)
    (oneLine : '\n' ∉ inner) : Regular t (before ++ o :: (inner ++ [k])) where
  nested := by
    refine Nested.append ?_ (.wrapped opening closing noArrow nested)
    refine .of_forall (fun c mem => isOpening_of_isPathChar (path c mem))
      (fun c mem => isClosing_of_isPathChar (path c mem)) fun c mem => ?_
    refine ⟨ne_of_isPathChar (path c mem) rfl, fun bar => ?_⟩
    exact absurd bar (ne_of_isPathChar (path c mem) rfl)
  first := by
    obtain ⟨c, first, starts⟩ := first
    refine ⟨c, ?_, starts⟩
    cases before with
    | nil => exact first
    | cons d before => exact first
  last := by
    refine ⟨k, by simp [List.getLast?_cons], ?_⟩
    simp [endsType, closing]
  oneLine := by
    have inPath : '\n' ∉ before := fun mem => ne_of_isPathChar (path _ mem) rfl rfl
    have inOpening : '\n' ≠ o := by
      rintro rfl
      cases opening
    have inClosing : '\n' ≠ k := by
      rintro rfl
      cases closing
    simp [inPath, inOpening, inClosing, oneLine]

/-- The outline of a spelling that is no union fits every tree. -/
theorem retarget (h : Regular u s) (noUnion : u.isUnion = false) : Regular t s where
  nested := by
    refine h.nested.mono fun c ⟨noComma, bar⟩ => ⟨noComma, fun same => ?_⟩
    rw [noUnion] at bar
    cases bar same
  first := h.first
  last := h.last
  oneLine := h.oneLine

/-- A text with more behind it. -/
theorem append (h : Regular t s) (nested : Nested t.Outside r)
    (last : ∃ c, r.getLast? = some c ∧ endsType c = true) (oneLine : '\n' ∉ r) :
    Regular t (s ++ r) where
  nested := h.nested.append nested
  first := by
    rw [h.tight.head?_append]
    exact h.first
  last := by
    obtain ⟨c, last, ends⟩ := last
    refine ⟨c, ?_, ends⟩
    rw [List.getLast?_append, last]
    rfl
  oneLine := by
    rw [List.mem_append, not_or]
    exact ⟨h.oneLine, oneLine⟩

/-- A text with a mark in front. -/
theorem cons {c : Char} (h : Regular t s) (starts : startsType c = true)
    (opening : isOpening c = false) (closing : isClosing c = false) : Regular t (c :: s) where
  nested := by
    refine .plain opening closing ⟨?_, ?_⟩ h.nested
    · rintro rfl
      cases starts
    · rintro rfl
      cases starts
  first := ⟨c, rfl, starts⟩
  last := by
    obtain ⟨d, last, ends⟩ := h.last
    refine ⟨d, ?_, ends⟩
    rw [List.getLast?_cons, last]
    rfl
  oneLine := by
    rw [List.mem_cons]
    rintro (rfl | mem)
    · cases starts
    · exact h.oneLine mem

end Regular

/-! ## Pieces between commas -/

/-- The outline of a piece between commas. -/
structure Item (s : List Char) : Prop where
  nested : Nested (· ≠ ',') s
  tight : Text.Tight s
  oneLine : '\n' ∉ s

namespace Item

variable {pieces : List (List Char)} {s : List Char}

/-- Joined pieces nest. -/
theorem nested_joined (each : ∀ piece ∈ pieces, Item piece) (joined : Joined ',' pieces s) :
    Nested (fun _ => True) s :=
  joined.nested (fun piece mem => (each piece mem).nested.anywhere) trivial trivial rfl rfl

theorem oneLine_joined (each : ∀ piece ∈ pieces, Item piece) (joined : Joined ',' pieces s) :
    '\n' ∉ s :=
  joined.not_mem (fun piece mem => (each piece mem).oneLine) (by decide) (by decide)

/-- Joined pieces are split again. -/
theorem splitOutside_joined (each : ∀ piece ∈ pieces, Item piece) (joined : Joined ',' pieces s) :
    splitOutside ',' s = pieces :=
  joined.splitOutside_eq (fun piece mem => (each piece mem).nested)
    (fun piece mem => (each piece mem).tight) rfl rfl (by decide)

theorem nested_listed (each : ∀ piece ∈ pieces, Item piece) (listed : Listed pieces s) :
    Nested (fun _ => True) s :=
  listed.nested fun piece mem => (each piece mem).nested

theorem oneLine_listed (each : ∀ piece ∈ pieces, Item piece) (listed : Listed pieces s) :
    '\n' ∉ s :=
  listed.not_mem (fun piece mem => (each piece mem).oneLine) (by decide) (by decide)

theorem splitOutside_listed (each : ∀ piece ∈ pieces, Item piece) (listed : Listed pieces s) :
    splitOutside ',' s = pieces :=
  listed.splitOutside_eq (fun piece mem => (each piece mem).nested)
    fun piece mem => (each piece mem).tight

end Item

theorem Regular.item {t : DocType} {s : List Char} (h : Regular t s) : Item s where
  nested := h.nested.mono fun _ outside => outside.1
  tight := h.tight
  oneLine := h.oneLine

/-- Marks do not change the outline of an argument. -/
theorem Regular.item_argument {t : DocType} {s : List Char} (h : Regular t s)
    (isRest isOptional : Bool) : Item (restMark isRest ++ (s ++ optionalMark isOptional)) where
  nested := by
    refine Nested.append ?_ (h.item.nested.append ?_)
    · cases isRest with
      | false => exact .nil
      | true =>
        have noComma : '.' ≠ ',' := by decide
        exact .plain rfl rfl noComma (.plain rfl rfl noComma (.plain rfl rfl noComma .nil))
    · cases isOptional with
      | false => exact .nil
      | true => exact .plain rfl rfl (by decide) .nil
  tight := by
    have marked : Text.Tight (s ++ optionalMark isOptional) := by
      cases isOptional with
      | false =>
        rw [show optionalMark false = [] from rfl, List.append_nil]
        exact h.tight
      | true => exact h.tight.append ⟨⟨'=', rfl, rfl⟩, ⟨'=', rfl, rfl⟩⟩
    cases isRest with
    | false => exact marked
    | true => exact Text.Tight.append ⟨⟨'.', rfl, rfl⟩, ⟨'.', rfl, rfl⟩⟩ marked
  oneLine := by
    have noMark : '\n' ∉ restMark isRest := by cases isRest <;> decide
    have noMark' : '\n' ∉ optionalMark isOptional := by cases isOptional <;> decide
    simp [noMark, noMark', h.oneLine]

/-- A key does not change the outline of an entry. -/
theorem Regular.item_field {t : DocType} {key s : List Char} (h : Regular t s)
    (identifier : IsAsciiIdentifier key) (before after : Nat) :
    Item (key ++ Text.pad before ++ ':' :: (Text.pad after ++ s)) := by
  have path := IsPath.single identifier
  have noPad := Text.not_mem_pad (c := '\n') (by decide)
  constructor
  · refine ((path.nested ?_).append (.pad (by decide) before)).append ?_
    · exact fun c char => ne_of_isPathChar char rfl
    · refine .plain rfl rfl (by decide) ?_
      exact (Nested.pad (by decide) after).append h.item.nested
  · obtain ⟨c, first, solid⟩ := path.tight.first
    obtain ⟨d, last, solid'⟩ := h.tight.last
    refine ⟨⟨c, ?_, solid⟩, ⟨d, ?_, solid'⟩⟩
    · rw [List.append_assoc, path.tight.head?_append, first]
    · exact Text.getLast?_spaced last _ ':' after
  · have inKey : '\n' ∉ key := path.not_mem rfl
    simp [inKey, noPad before, noPad after, h.oneLine]

/-! ## The outline of every spelling -/

/-- Each text of some matching lists is related to a tree. -/
theorem exists_of_mem_forall₂ {α β : Type} {R : α → β → Prop} {as : List α} {bs : List β}
    (each : List.Forall₂ R as bs) : ∀ b ∈ bs, ∃ a ∈ as, R a b := by
  induction each with
  | nil =>
    intro b mem
    cases mem
  | @cons a b as bs related _ ih =>
    intro other mem
    rcases List.mem_cons.1 mem with rfl | mem
    · exact ⟨a, List.mem_cons_self, related⟩
    · obtain ⟨a', mem', related'⟩ := ih other mem
      exact ⟨a', List.mem_cons_of_mem a mem', related'⟩

theorem startsType_of_isPath {s : List Char} (h : IsPath s) (rest : List Char) :
    ∃ c, (s ++ rest).head? = some c ∧ startsType c = true := by
  obtain ⟨word, more, rfl, filled, chars, -⟩ := h.exists_word
  obtain ⟨c, word, rfl⟩ := List.exists_cons_of_ne_nil filled
  exact ⟨c, rfl, by simp [startsType, chars c List.mem_cons_self]⟩

theorem dot_cases (dotted : Bool) : dot dotted = [] ∨ dot dotted = ['.'] := by
  cases dotted with
  | false => exact .inl rfl
  | true => exact .inr rfl

/-- Joined spellings do not end in an equals sign. -/
theorem Regular.getLast?_joined_ne {separator : Char} {pieces : List (List Char)} {s : List Char}
    (each : ∀ piece ∈ pieces, ∃ t, Regular t piece) (joined : Joined separator pieces s) :
    s.getLast? ≠ some '=' := by
  obtain ⟨c, last, ends⟩ := joined.getLast? fun piece mem =>
    (each piece mem).elim fun t outline => outline.last
  rw [last]
  rintro same
  cases same
  cases ends

theorem Regular.items {pieces : List (List Char)} (each : ∀ piece ∈ pieces, ∃ t, Regular t piece) :
    ∀ piece ∈ pieces, Item piece :=
  fun piece mem => (each piece mem).elim fun _ outline => outline.item

/-- A path with arguments in angle brackets has the outline of a spelling. -/
theorem Regular.generic {t : DocType} {base s : List Char} {pieces : List (List Char)}
    (path : IsPath base) (dotted : Bool) (each : ∀ piece ∈ pieces, ∃ u, Regular u piece)
    (joined : Joined ',' pieces s) : Regular t (base ++ dot dotted ++ '<' :: (s ++ ['>'])) := by
  refine .wrapped _ ?_ ?_ rfl rfl (fun _ => getLast?_joined_ne each joined)
    (Item.nested_joined (items each) joined) (Item.oneLine_joined (items each) joined)
  · intro c mem
    rcases List.mem_append.1 mem with mem | mem
    · exact path.isPathChar_of_mem c mem
    · rcases dot_cases dotted with none | one
      · rw [none] at mem
        cases mem
      · rw [one, List.mem_singleton] at mem
        rw [mem]
        decide
  · rw [List.append_assoc]
    exact startsType_of_isPath path _

/-- The parentheses of a function type have the outline of a spelling. -/
theorem Regular.call {t : DocType} {pieces : List (List Char)} {s : List Char}
    (items : ∀ piece ∈ pieces, Item piece) (listed : Listed pieces s) :
    Regular t ("function".toList ++ '(' :: (s ++ [')'])) :=
  .wrapped _ isPath_function.isPathChar_of_mem ⟨'f', rfl, rfl⟩ rfl rfl
    (fun angle => absurd angle (by decide)) (Item.nested_listed items listed)
    (Item.oneLine_listed items listed)

/-- A return type behind its colon. -/
theorem Regular.call_returns {t u : DocType} {pieces : List (List Char)} {s r : List Char}
    (items : ∀ piece ∈ pieces, Item piece) (listed : Listed pieces s) (before after : Nat)
    (returns : Regular u r) (noUnion : u.isUnion = false) :
    Regular t
      ("function".toList ++
        '(' :: (s ++ ')' :: (Text.pad before ++ ':' :: (Text.pad after ++ r)))) := by
  have space : t.Outside ' ' := ⟨by decide, fun bar => absurd bar (by decide)⟩
  have colon : t.Outside ':' := ⟨by decide, fun bar => absurd bar (by decide)⟩
  have noPad := Text.not_mem_pad (c := '\n') (by decide)
  have whole : Regular t (("function".toList ++ '(' :: (s ++ [')'])) ++
      (Text.pad before ++ ':' :: (Text.pad after ++ r))) := by
    refine (Regular.call items listed).append ?_ ?_ ?_
    · refine (Nested.pad space before).append (.plain rfl rfl colon ?_)
      exact (Nested.pad space after).append (returns.retarget noUnion).nested
    · obtain ⟨c, last, ends⟩ := returns.last
      exact ⟨c, Text.getLast?_spaced last _ ':' after, ends⟩
    · simp [noPad before, noPad after, returns.oneLine]
  simpa using whole

theorem isUnion_of_takesBrackets {t : DocType} (h : t.takesBrackets = true) :
    t.isUnion = false := by
  cases t with
  | union members => cases h
  | _ => rfl

/-- **Induction over spellings**, on their length. -/
theorem Spells.induction {P : DocType → List Char → Prop}
    (step : ∀ t s, Spells t s → (∀ u r, r.length < s.length → Spells u r → P u r) → P t s)
    {t : DocType} {s : List Char} (spelled : Spells t s) : P t s := by
  -- Not on the derivation: the parts of a list of pieces are derived inside of `List.Forall₂`.
  induction length : s.length using Nat.strongRecOn generalizing t s with
  | ind n ih =>
    subst length
    exact step t s spelled fun u r shorter inner => ih r.length shorter inner rfl

/-- An argument is a piece between commas if its type has the outline of a spelling. -/
theorem SpellsArgument.item {argument : TypeExpr.Argument DocType} {piece : List Char}
    (spelled : SpellsArgument argument piece)
    (regular : ∀ s, s.length ≤ piece.length → Spells argument.type s → Regular argument.type s) :
    Item piece := by
  cases spelled with
  | @mk _ s type =>
    refine (regular s ?_ type).item_argument argument.isRest argument.isOptional
    simp only [List.length_append]
    omega

/-- An entry is a piece between commas if its type has the outline of a spelling. -/
theorem SpellsField.item {field : List Char × DocType} {piece : List Char}
    (spelled : SpellsField field piece)
    (regular : ∀ s, s.length ≤ piece.length → Spells field.2 s → Regular field.2 s) :
    Item piece := by
  cases spelled with
  | @mk key t s before after identifier type =>
    refine (regular s ?_ type).item_field identifier before after
    simp only [List.length_append, List.length_cons]
    omega

/-- **Every spelling has the outline of one.** -/
theorem Spells.regular {t : DocType} {s : List Char} (spelled : Spells t s) : Regular t s := by
  refine Spells.induction (P := Regular) ?_ spelled
  intro t s spelled ih
  cases spelled with
  | name isName =>
    refine ⟨isName.1.nested ?_, ?_, ?_, isName.1.not_mem rfl⟩
    · intro c char
      refine ⟨ne_of_isPathChar char rfl, fun bar => ?_⟩
      exact absurd bar (ne_of_isPathChar char rfl)
    · have first := startsType_of_isPath isName.1 []
      rwa [List.append_nil] at first
    · obtain ⟨c, last, word⟩ := isName.1.last
      exact ⟨c, last, by simp [endsType, word]⟩
  | anything =>
    refine ⟨.plain rfl rfl ⟨by decide, by decide⟩ .nil, ⟨'*', rfl, rfl⟩, ⟨'*', rfl, rfl⟩, by decide⟩
  | @array u s dotted element =>
    have each : ∀ piece ∈ [s], ∃ v, Regular v piece := by
      rw [List.forall_mem_singleton]
      exact ⟨u, ih u s (length_lt_wrapped _ s [] _ _) element⟩
    exact .generic isPath_array dotted each (.single s)
  | @list u s fits element =>
    have inner : Regular u s := ih u s (by simp) element
    have brackets : Nested u.list.Outside ['[', ']'] :=
      .wrapped rfl rfl (fun angle => absurd angle (by decide)) (Nested.nil : Nested u.Outside [])
    have front := inner.retarget (t := u.list) (isUnion_of_takesBrackets fits)
    exact front.append brackets ⟨']', rfl, rfl⟩ (by decide)
  | @dictionary key value k v s dotted spelledKey spelledValue joined =>
    have shorter := joined.length_lt_wrapped ("Object".toList ++ dot dotted) [] '<' '>'
    rw [List.forall_mem_cons, List.forall_mem_singleton] at shorter
    have each : ∀ piece ∈ [k, v], ∃ u, Regular u piece := by
      rw [List.forall_mem_cons, List.forall_mem_singleton]
      exact ⟨⟨key, ih key k shorter.1 spelledKey⟩, ⟨value, ih value v shorter.2 spelledValue⟩⟩
    exact .generic isPath_object dotted each joined
  | @generic base args pieces s dotted isName noObject spellings joined =>
    have each : ∀ piece ∈ pieces, ∃ u, Regular u piece := by
      intro piece mem
      obtain ⟨u, _, spelled⟩ := exists_of_mem_forall₂ spellings piece mem
      exact ⟨u, ih u piece (joined.length_lt_wrapped _ [] '<' '>' piece mem) spelled⟩
    exact .generic isName.1 dotted each joined
  | @procedure arguments pieces s each listed =>
    have items : ∀ piece ∈ pieces, Item piece := by
      intro piece mem
      obtain ⟨argument, _, spelled⟩ := exists_of_mem_forall₂ each piece mem
      have inside := listed.length_lt_wrapped "function".toList [] '(' ')' piece mem
      exact spelled.item fun r shorter => ih _ r (Nat.lt_of_le_of_lt shorter inside)
    exact .call items listed
  | @function arguments pieces s u r before after each listed noUnion returns =>
    have items : ∀ piece ∈ pieces, Item piece := by
      intro piece mem
      obtain ⟨argument, _, spelled⟩ := exists_of_mem_forall₂ each piece mem
      have inside := listed.length_lt_wrapped "function".toList
        (Text.pad before ++ ':' :: (Text.pad after ++ r)) '(' ')' piece mem
      exact spelled.item fun r' shorter => ih _ r' (Nat.lt_of_le_of_lt shorter inside)
    have inner : Regular u r := by
      refine ih u r ?_ returns
      simp only [List.length_append, List.length_cons]
      omega
    exact .call_returns items listed before after inner noUnion
  | @union members pieces s several noUnion each joined =>
    have each : ∀ piece ∈ pieces, Regular (.union members) piece := by
      intro piece mem
      obtain ⟨u, mem', spelled⟩ := exists_of_mem_forall₂ each piece mem
      have shorter := joined.length_lt (by rw [← each.length_eq]; exact several) piece mem
      exact (ih u piece shorter spelled).retarget (noUnion u mem')
    refine ⟨?_, joined.head? fun piece mem => (each piece mem).first,
      joined.getLast? fun piece mem => (each piece mem).last,
      joined.not_mem (fun piece mem => (each piece mem).oneLine) (by decide) (by decide)⟩
    exact joined.nested (fun piece mem => (each piece mem).nested)
      ⟨by decide, fun bar => absurd bar (by decide)⟩ ⟨by decide, fun _ => rfl⟩ rfl rfl
  | @group u s inner =>
    have inner : Regular u s := ih u s (length_lt_wrapped [] s [] _ _) inner
    exact .wrapped [] (fun d mem => absurd mem List.not_mem_nil) ⟨'(', rfl, rfl⟩ rfl rfl
      (fun angle => absurd angle (by decide)) inner.nested inner.oneLine
  | @record fields pieces s each joined =>
    have items : ∀ piece ∈ pieces, Item piece := by
      intro piece mem
      obtain ⟨field, _, spelled⟩ := exists_of_mem_forall₂ each piece mem
      have inside := joined.length_lt_wrapped [] [] '\x7b' '\x7d' piece mem
      exact spelled.item fun r shorter => ih _ r (Nat.lt_of_le_of_lt shorter inside)
    exact .wrapped [] (fun d mem => absurd mem List.not_mem_nil) ⟨'\x7b', rfl, rfl⟩ rfl rfl
      (fun angle => absurd angle (by decide)) (Item.nested_joined items joined)
      (Item.oneLine_joined items joined)
  | @optional u s noUnion inner =>
    exact ((ih u s (Nat.lt_succ_self _) inner).retarget noUnion).cons rfl rfl rfl
  | @required u s noUnion inner =>
    exact ((ih u s (Nat.lt_succ_self _) inner).retarget noUnion).cons rfl rfl rfl

theorem regular_of_spellings {types : List DocType} {pieces : List (List Char)}
    (each : List.Forall₂ Spells types pieces) : ∀ piece ∈ pieces, ∃ t, Regular t piece := by
  intro piece mem
  obtain ⟨t, _, spelled⟩ := exists_of_mem_forall₂ each piece mem
  exact ⟨t, spelled.regular⟩

theorem items_of_arguments {arguments : List (TypeExpr.Argument DocType)}
    {pieces : List (List Char)} (each : List.Forall₂ SpellsArgument arguments pieces) : ∀ piece ∈ pieces, Item piece := by
  intro piece mem
  obtain ⟨argument, _, spelled⟩ := exists_of_mem_forall₂ each piece mem
  exact spelled.item fun _ _ type => type.regular

theorem items_of_fields {fields : List (List Char × DocType)} {pieces : List (List Char)}
    (each : List.Forall₂ SpellsField fields pieces) : ∀ piece ∈ pieces, Item piece := by
  intro piece mem
  obtain ⟨field, _, spelled⟩ := exists_of_mem_forall₂ each piece mem
  exact spelled.item fun _ _ type => type.regular

end Ambient.DocType
