import Ambient.Proofs.TypeExpr.Arguments
/-!
# Type expressions as texts

The texts of well-formed type expressions, as a grammar of texts without trees. A phrase is made of
members with bars between them. What stands in brackets is a phrase again; a mark, and the colon of
a function type, belong to the one member behind them. So a text is taken apart in one way, however
it was put together: `?A|B` has the members `?A` and `B`.

## Main definitions

* `TypeExpr.IsPhrase`, `TypeExpr.IsMember`: the grammar, for a given class of generic
  applications.
* `TypeExpr.IsMarkedPhrase`: a phrase whose members may have equals signs behind them.

## Main statements

* `TypeExpr.IsPhrase.union`, `TypeExpr.IsPhrase.marked`, `TypeExpr.IsPhrase.callReturns`: phrases may be
  joined, marked and returned.
* `TypeExpr.IsMember.regular`: the outline of a member.
* `TypeExpr.IsMarkedPhrase.exists_start`: the first word of a phrase.
* `TypeExpr.IsArgument.type_read`: the type of an argument is a phrase.
-/

namespace Ambient.TypeExpr

open DocType

/-! ## The grammar -/

mutual

/-- Members with bars between them. -/
inductive IsPhrase (fits : List Char → Nat → Prop) : List Char → Prop
  | mk {pieces : List (List Char)} {s : List Char} (joined : Joined '|' pieces s)
      (each : ∀ piece ∈ pieces, IsMember fits piece) : IsPhrase fits s

/-- A type expression without bars outside of brackets. A generic application has a base and a number of
arguments that fit. -/
inductive IsMember (fits : List Char → Nat → Prop) : List Char → Prop
  | name {s : List Char} (path : IsPath s) : IsMember fits s
  | anything : IsMember fits ['*']
  | generic {base : List Char} {pieces : List (List Char)} {s : List Char} (dotted : Bool)
      (path : IsPath base) (fit : fits base pieces.length) (joined : Joined ',' pieces s)
      (each : ∀ piece ∈ pieces, IsPhrase fits piece) :
      IsMember fits (base ++ dot dotted ++ '<' :: (s ++ ['>']))
  | call {pieces : List (List Char)} {s : List Char} (listed : Listed pieces s)
      (each : ∀ piece ∈ pieces, IsArgument fits piece) :
      IsMember fits ("function".toList ++ '(' :: (s ++ [')']))
  | callReturns {pieces : List (List Char)} {s r : List Char} (before after : Nat)
      (listed : Listed pieces s) (each : ∀ piece ∈ pieces, IsArgument fits piece)
      (returns : IsMember fits r) :
      IsMember fits ("function".toList ++
        '(' :: (s ++ ')' :: (Text.pad before ++ ':' :: (Text.pad after ++ r))))
  | group {s : List Char} (inner : IsPhrase fits s) : IsMember fits ('(' :: (s ++ [')']))
  | record {pieces : List (List Char)} {s : List Char} (listed : Listed pieces s)
      (each : ∀ piece ∈ pieces, IsEntry fits piece) : IsMember fits ('\x7b' :: (s ++ ['\x7d']))
  | optional {s : List Char} (inner : IsMember fits s) : IsMember fits ('?' :: s)
  | required {s : List Char} (inner : IsMember fits s) : IsMember fits ('!' :: s)

/-- An argument of a function type, with its marks. -/
inductive IsArgument (fits : List Char → Nat → Prop) : List Char → Prop
  | mk {s : List Char} (isRest isOptional : Bool) (type : IsPhrase fits s) :
      IsArgument fits (restMark isRest ++ (s ++ optionalMark isOptional))

/-- An entry of a record, with a type or without one. -/
inductive IsEntry (fits : List Char → Nat → Prop) : List Char → Prop
  | bare {key : List Char} (identifier : IsAsciiIdentifier key) : IsEntry fits key
  | typed {key s : List Char} (before after : Nat) (identifier : IsAsciiIdentifier key)
      (type : IsPhrase fits s) :
      IsEntry fits (key ++ Text.pad before ++ ':' :: (Text.pad after ++ s))

end

variable {fits : List Char → Nat → Prop} {s t : List Char}

theorem IsMember.phrase (h : IsMember fits s) : IsPhrase fits s :=
  .mk (.single s) (List.forall_mem_singleton.2 h)

namespace IsPhrase

/-- The first member may be exchanged. -/
theorem exists_first (h : IsPhrase fits s) : ∃ first after, s = first ++ after ∧
    IsMember fits first ∧ ∀ t, IsMember fits t → IsPhrase fits (t ++ after) := by
  cases h with
  | mk joined each =>
    obtain ⟨first, rest, after, rfl, rfl, exchange⟩ := joined.exists_first
    rw [List.forall_mem_cons] at each
    exact ⟨first, after, rfl, each.1, fun t member =>
      .mk (exchange t) (List.forall_mem_cons.2 ⟨member, each.2⟩)⟩

/-- A union of phrases is a phrase. -/
theorem union (h : IsPhrase fits s) (h' : IsPhrase fits t) (before after : Nat) :
    IsPhrase fits (s ++ Text.pad before ++ '|' :: (Text.pad after ++ t)) := by
  cases h with
  | mk joined each =>
    induction joined with
    | single piece =>
      cases h' with
      | mk joined' each' =>
        rw [List.forall_mem_singleton] at each
        exact .mk (.cons piece before after joined') (List.forall_mem_cons.2 ⟨each, each'⟩)
    | @cons piece n m pieces rest tail ih =>
      rw [List.forall_mem_cons] at each
      cases ih each.2 with
      | mk joined' each' =>
        have whole := Joined.cons piece n m joined'
        simp only [List.append_assoc, List.cons_append] at whole ⊢
        exact .mk whole (List.forall_mem_cons.2 ⟨each.1, each'⟩)

/-- A mark in front of a phrase marks its first member. -/
theorem marked {mark : Char} (h : IsPhrase fits s) (isMark : mark = '?' ∨ mark = '!') :
    IsPhrase fits (mark :: s) := by
  obtain ⟨first, after, rfl, member, exchange⟩ := h.exists_first
  rcases isMark with rfl | rfl
  · exact exchange ('?' :: first) member.optional
  · exact exchange ('!' :: first) member.required

/-- A phrase behind the colon of a function type. -/
theorem callReturns {pieces : List (List Char)} {r : List Char} (h : IsPhrase fits r)
    (listed : Listed pieces s) (each : ∀ piece ∈ pieces, IsArgument fits piece) (before after : Nat) :
    IsPhrase fits ("function".toList ++
      '(' :: (s ++ ')' :: (Text.pad before ++ ':' :: (Text.pad after ++ r)))) := by
  obtain ⟨first, behind, rfl, member, exchange⟩ := h.exists_first
  rw [← returns_append]
  exact exchange _ (.callReturns before after listed each member)

end IsPhrase

/-! ## The outline -/

/-- **Induction over members**, on their length. -/
theorem IsMember.induction {P : List Char → Prop}
    (step : ∀ s, IsMember fits s →
      (∀ r, r.length < s.length → IsMember fits r → P r) → P s)
    (h : IsMember fits s) : P s := by
  induction length : s.length using Nat.strongRecOn generalizing s with
  | ind n ih =>
    subst length
    exact step s h fun r shorter inner => ih r.length shorter inner rfl

/-- The outline of members joined by bars is that of a union. -/
theorem regular_joined {u : DocType} {pieces : List (List Char)} (union : u.isUnion = true)
    (joined : Joined '|' pieces s) (each : ∀ piece ∈ pieces, Regular .anything piece) :
    Regular u s := by
  have each : ∀ piece ∈ pieces, Regular u piece := fun piece mem => (each piece mem).retarget rfl
  refine ⟨?_, joined.head? fun piece mem => (each piece mem).first,
    joined.getLast? fun piece mem => (each piece mem).last,
    joined.not_mem (fun piece mem => (each piece mem).oneLine) (by decide) (by decide)⟩
  exact joined.nested (fun piece mem => (each piece mem).nested)
    ⟨by decide, fun bar => absurd bar (by decide)⟩ ⟨by decide, fun _ => union⟩ rfl rfl

theorem IsPhrase.regular_of (h : IsPhrase fits s)
    (each : ∀ r, r.length ≤ s.length → IsMember fits r → Regular .anything r) :
    Regular (.union []) s := by
  cases h with
  | mk joined members =>
    exact regular_joined rfl joined fun piece mem =>
      each piece (joined.length_le piece mem) (members piece mem)

theorem IsArgument.item_of (h : IsArgument fits s)
    (each : ∀ r, r.length ≤ s.length → IsPhrase fits r → Regular (.union []) r) : Item s := by
  cases h with
  | @mk r isRest isOptional type =>
    refine (each r ?_ type).item_argument isRest isOptional
    simp only [List.length_append]
    omega

theorem IsEntry.item_of (h : IsEntry fits s)
    (each : ∀ r, r.length ≤ s.length → IsPhrase fits r → Regular (.union []) r) : Item s := by
  cases h with
  | bare identifier =>
    have path := IsPath.single identifier
    exact ⟨path.nested fun c char => ne_of_isPathChar char rfl, path.tight, path.not_mem rfl⟩
  | @typed key r before after identifier type =>
    refine (each r ?_ type).item_field identifier before after
    simp only [List.length_append, List.length_cons]
    omega

/-- **Every member has the outline of a spelling.** -/
theorem IsMember.regular (h : IsMember fits s) : Regular .anything s := by
  refine IsMember.induction (P := Regular .anything) ?_ h
  intro s h ih
  -- The outlines of what stands in brackets.
  have phrase : ∀ r, r.length < s.length → IsPhrase fits r → Regular (.union []) r :=
    fun r shorter inner => inner.regular_of fun r' le member =>
      ih r' (Nat.lt_of_le_of_lt le shorter) member
  have argument : ∀ piece, piece.length < s.length → IsArgument fits piece → Item piece :=
    fun piece shorter inner => inner.item_of fun r le => phrase r (Nat.lt_of_le_of_lt le shorter)
  have entry : ∀ piece, piece.length < s.length → IsEntry fits piece → Item piece :=
    fun piece shorter inner => inner.item_of fun r le => phrase r (Nat.lt_of_le_of_lt le shorter)
  cases h with
  | name path =>
    refine ⟨path.nested ?_, ?_, ?_, path.not_mem rfl⟩
    · refine fun c char => ⟨ne_of_isPathChar char rfl, fun bar => ?_⟩
      exact absurd bar (ne_of_isPathChar char rfl)
    · have first := startsType_of_isPath path []
      rwa [List.append_nil] at first
    · obtain ⟨c, last, word⟩ := path.last
      exact ⟨c, last, by simp [endsType, word]⟩
  | anything => exact Spells.anything.regular
  | @generic base pieces s dotted path fit joined each =>
    refine .generic path dotted (fun piece mem => ⟨.union [], ?_⟩) joined
    exact phrase piece (joined.length_lt_wrapped _ [] '<' '>' piece mem) (each piece mem)
  | @call pieces s listed each =>
    refine .call (fun piece mem => ?_) listed
    exact argument piece (listed.length_lt_wrapped _ [] '(' ')' piece mem) (each piece mem)
  | @callReturns pieces s r before after listed each returns =>
    refine .call_returns (fun piece mem => ?_) listed before after (u := .anything) (ih r ?_ returns)
      rfl
    · exact argument piece (listed.length_lt_wrapped _ _ '(' ')' piece mem) (each piece mem)
    · simp only [List.length_append, List.length_cons]
      omega
  | @group s inner =>
    have inside := phrase s (length_lt_wrapped [] s [] _ _) inner
    exact .wrapped [] (fun d mem => absurd mem List.not_mem_nil) ⟨'(', rfl, rfl⟩ rfl rfl
      (fun angle => absurd angle (by decide)) inside.nested inside.oneLine
  | @record pieces s listed each =>
    have items : ∀ piece ∈ pieces, Item piece := fun piece mem =>
      entry piece (listed.length_lt_wrapped [] [] '\x7b' '\x7d' piece mem) (each piece mem)
    exact .wrapped [] (fun d mem => absurd mem List.not_mem_nil) ⟨'\x7b', rfl, rfl⟩ rfl rfl
      (fun angle => absurd angle (by decide)) (Item.nested_listed items listed)
      (Item.oneLine_listed items listed)
  | @optional s inner => exact (ih s (Nat.lt_succ_self _) inner).cons rfl rfl rfl
  | @required s inner => exact (ih s (Nat.lt_succ_self _) inner).cons rfl rfl rfl

theorem IsPhrase.regular (h : IsPhrase fits s) : Regular (.union []) s :=
  h.regular_of fun _ _ member => member.regular

theorem IsArgument.item (h : IsArgument fits s) : Item s :=
  h.item_of fun _ _ type => type.regular

theorem IsEntry.item (h : IsEntry fits s) : Item s :=
  h.item_of fun _ _ type => type.regular

/-- No member ends in a square bracket. -/
theorem IsMember.getLast?_ne (h : IsMember fits s) : s.getLast? ≠ some ']' := by
  refine IsMember.induction (P := fun s => s.getLast? ≠ some ']') ?_ h
  intro s h ih
  cases h with
  | name path => exact fun last => path.not_mem rfl (List.mem_of_getLast? last)
  | anything => decide
  | generic dotted path fit joined each =>
    rw [getLast?_wrapped]
    decide
  | call listed each =>
    rw [getLast?_wrapped]
    decide
  | @callReturns pieces s r before after listed each returns =>
    rw [getLast?_returns s before after returns.regular.tight]
    refine ih r ?_ returns
    simp only [List.length_append, List.length_cons]
    omega
  | @group s inner =>
    have last := getLast?_wrapped [] s '(' ')'
    rw [List.nil_append] at last
    rw [last]
    decide
  | @record pieces s listed each =>
    have last := getLast?_wrapped [] s '\x7b' '\x7d'
    rw [List.nil_append] at last
    rw [last]
    decide
  | @optional s inner =>
    have last := inner.regular.tight.getLast?_append ['?']
    rw [List.singleton_append] at last
    rw [last]
    exact ih s (Nat.lt_succ_self _) inner
  | @required s inner =>
    have last := inner.regular.tight.getLast?_append ['!']
    rw [List.singleton_append] at last
    rw [last]
    exact ih s (Nat.lt_succ_self _) inner

/-! ## Equals signs -/

/-- A member, perhaps with an equals sign behind it. -/
inductive IsMarked (fits : List Char → Nat → Prop) : List Char → Prop
  | mk {s : List Char} (member : IsMember fits s) (isOptional : Bool) :
      IsMarked fits (s ++ optionalMark isOptional)

/-- A phrase whose members may have equals signs behind them. The types of optional arguments are
such texts, and the parts of such texts are such texts. -/
inductive IsMarkedPhrase (fits : List Char → Nat → Prop) : List Char → Prop
  | mk {pieces : List (List Char)} {s : List Char} (joined : Joined '|' pieces s)
      (each : ∀ piece ∈ pieces, IsMarked fits piece) : IsMarkedPhrase fits s

theorem IsMember.marked (h : IsMember fits s) : IsMarked fits s := by
  have whole := IsMarked.mk h false
  rwa [show optionalMark false = [] from rfl, List.append_nil] at whole

theorem IsMarked.phrase (h : IsMarked fits s) : IsMarkedPhrase fits s :=
  .mk (.single s) (List.forall_mem_singleton.2 h)

/-- An equals sign behind a phrase stands behind its last member. -/
theorem IsPhrase.markedPhrase (h : IsPhrase fits s) (isOptional : Bool) :
    IsMarkedPhrase fits (s ++ optionalMark isOptional) := by
  cases h with
  | mk joined each =>
    obtain ⟨front, last, before, rfl, rfl, exchange⟩ := joined.exists_last
    rw [List.forall_mem_append, List.forall_mem_singleton] at each
    rw [List.append_assoc]
    refine .mk (exchange _) ?_
    rw [List.forall_mem_append, List.forall_mem_singleton]
    exact ⟨fun piece mem => (each.1 piece mem).marked, .mk each.2 isOptional⟩

namespace IsMarked

theorem item (h : IsMarked fits s) : Item s := by
  cases h with
  | mk member isOptional => exact member.regular.item_argument false isOptional

theorem nested (h : IsMarked fits s) : Nested (· ≠ '|') s := by
  cases h with
  | mk member isOptional =>
    refine Nested.append (member.regular.nested.mono fun c outside bar => ?_) ?_
    · cases outside.2 bar
    · cases isOptional with
      | false => exact .nil
      | true => exact .plain rfl rfl (by decide) .nil

theorem splitOutside_eq (h : IsMarked fits s) : splitOutside '|' s = [s] :=
  splitOutside_single h.nested h.item.tight rfl rfl (by decide)

theorem getLast?_ne (h : IsMarked fits s) : ∃ c, s.getLast? = some c ∧ c ≠ ']' := by
  cases h with
  | @mk s member isOptional =>
    cases isOptional with
    | false =>
      rw [show optionalMark false = [] from rfl, List.append_nil]
      obtain ⟨c, last, -⟩ := member.regular.last
      refine ⟨c, last, ?_⟩
      rintro rfl
      exact member.getLast?_ne last
    | true => exact ⟨'=', List.getLast?_concat, by decide⟩

end IsMarked

namespace IsMarkedPhrase

theorem item (h : IsMarkedPhrase fits s) : Item s := by
  cases h with
  | mk joined each =>
    refine ⟨?_, ⟨joined.head? fun piece mem => (each piece mem).item.tight.first,
      joined.getLast? fun piece mem => (each piece mem).item.tight.last⟩,
      joined.not_mem (fun piece mem => (each piece mem).item.oneLine) (by decide) (by decide)⟩
    exact joined.nested (fun piece mem => (each piece mem).item.nested) (by decide) (by decide) rfl rfl

theorem getLast?_ne (h : IsMarkedPhrase fits s) : s.getLast? ≠ some ']' := by
  cases h with
  | mk joined each =>
    obtain ⟨c, last, other⟩ := joined.getLast? fun piece mem => (each piece mem).getLast?_ne
    rw [last]
    rintro same
    cases same
    exact other rfl

/-- The first member of a phrase may be exchanged. A mark or a bar stands behind it, if anything
does. -/
theorem exists_cut (h : IsMarkedPhrase fits s) : ∃ first n more,
    s = first ++ (Text.pad n ++ more) ∧ IsMember fits first ∧ (more = [] → n = 0) ∧
      (∀ c, more.head? = some c → c = '=' ∨ c = '|') ∧
      ∀ t, IsMember fits t → IsMarkedPhrase fits (t ++ (Text.pad n ++ more)) := by
  cases h with
  | mk joined each =>
    cases joined with
    | single =>
      rw [List.forall_mem_singleton] at each
      cases each with
      | @mk s member isOptional =>
        exact ⟨s, 0, _, rfl, member, fun _ => rfl, fun c => head?_optionalMark,
          fun t other => (IsMarked.mk other isOptional).phrase⟩
    | @cons piece before after pieces rest tail =>
      rw [List.forall_mem_cons] at each
      obtain ⟨marked, others⟩ := each
      cases marked with
      | @mk s member isOptional =>
        have exchange : ∀ t, IsMember fits t → IsMarkedPhrase fits
            (t ++ (optionalMark isOptional ++
              (Text.pad before ++ '|' :: (Text.pad after ++ rest)))) := by
          intro t other
          have whole := Joined.cons (t ++ optionalMark isOptional) before after tail
          rw [List.append_assoc, List.append_assoc] at whole
          exact .mk whole (List.forall_mem_cons.2 ⟨.mk other isOptional, others⟩)
        cases isOptional with
        | false =>
          refine ⟨s, before, '|' :: (Text.pad after ++ rest), by simp [optionalMark], member,
            (fun none => nomatch none), ?_, exchange⟩
          rintro c bar
          cases bar
          exact .inr rfl
        | true =>
          refine ⟨s, 0, '=' :: (Text.pad before ++ '|' :: (Text.pad after ++ rest)),
            by simp [optionalMark], member, fun _ => rfl, ?_, exchange⟩
          rintro c equals
          cases equals
          exact .inl rfl

end IsMarkedPhrase

/-! ## The front -/

/-- **The first word of a member**, unless it is a function type. -/
theorem IsMember.opening_or (h : IsMember fits s) :
    (∃ t word rest, Opening t s word rest ∧ t.isFunction = false) ∨
      ∃ pieces inner tail, s = "function".toList ++ '(' :: (inner ++ ')' :: tail) ∧
        Listed pieces inner ∧ (∀ piece ∈ pieces, IsArgument fits piece) ∧
        (tail = [] ∨ ∃ before after r,
          tail = Text.pad before ++ ':' :: (Text.pad after ++ r) ∧ IsMember fits r) := by
  have path : ∀ {base rest : List Char}, IsPath base →
      (∀ c, rest.head? = some c → continuesWord c = true) →
        ∃ t word rest', Opening t (base ++ rest) word rest' ∧ t.isFunction = false := by
    intro base rest path next
    obtain ⟨word, rest', opening⟩ := Opening.of_isPath (t := .anything) path next
    exact ⟨_, word, rest', opening, rfl⟩
  cases h with
  | name isPath =>
    have whole := @path _ [] isPath fun c first => by cases first
    rw [List.append_nil] at whole
    exact .inl whole
  | anything =>
    exact .inl ⟨.anything, _, _, .of_mark rfl rfl (by decide) (fun same => absurd same (by decide))
      (fun same => absurd same (by decide)), rfl⟩
  | generic dotted isPath fit joined each =>
    rw [List.append_assoc]
    refine .inl (path isPath fun c first => ?_)
    cases dotted <;> cases first <;> rfl
  | @call pieces inner listed each => exact .inr ⟨pieces, inner, [], rfl, listed, each, .inl rfl⟩
  | @callReturns pieces inner r before after listed each returns =>
    exact .inr ⟨pieces, inner, _, rfl, listed, each, .inr ⟨before, after, r, rfl, returns⟩⟩
  | group inner =>
    exact .inl ⟨.anything, _, _, .of_mark rfl rfl (by decide) (fun same => absurd same (by decide))
      (fun same => absurd same (by decide)), rfl⟩
  | record listed each =>
    exact .inl ⟨.anything, _, _, .of_mark rfl rfl (by decide) (fun same => absurd same (by decide))
      (fun same => absurd same (by decide)), rfl⟩
  | optional inner =>
    exact .inl ⟨.optional .anything, _, _, .of_mark rfl rfl (by decide) (fun _ => rfl)
      (fun same => absurd same (by decide)), rfl⟩
  | required inner =>
    exact .inl ⟨.required .anything, _, _, .of_mark rfl rfl (by decide)
      (fun same => absurd same (by decide)) (fun _ => rfl), rfl⟩

/-- No colon stands behind the first word of a phrase. -/
theorem IsMarkedPhrase.exists_start (h : IsMarkedPhrase fits s) : ∃ word rest,
    StartsWith s word rest ∧ (Text.trimStart rest).head? ≠ some ':' := by
  obtain ⟨first, n, more, rfl, member, -, next, -⟩ := h.exists_cut
  have opening : ∃ t word rest, Opening t first word rest := by
    rcases member.opening_or with ⟨t, word, rest, opening, -⟩ | ⟨-, inner, tail, rfl, -⟩
    · exact ⟨t, word, rest, opening⟩
    · exact ⟨.function [] none, _, _, .of_isFunction rfl _⟩
  obtain ⟨t, word, rest, opening⟩ := opening
  exact ⟨word, _, opening.startsWith_append n next, opening.noColon_append n next⟩

/-- A member with a mark in front is a member without it. -/
theorem IsMember.exists_unmarked {mark : Char} (h : IsMember fits s) (isMark : mark = '?' ∨ mark = '!')
    (first : s.head? = some mark) : ∃ r, s = mark :: r ∧ IsMember fits r := by
  have noPath : ∀ {base : List Char} (rest : List Char), IsPath base →
      (base ++ rest).head? ≠ some mark := by
    intro base rest path first
    rw [path.tight.head?_append] at first
    have mem := List.mem_of_head? first
    rcases isMark with rfl | rfl <;> exact path.not_mem rfl mem
  cases h with
  | name path =>
    have none := noPath [] path
    rw [List.append_nil] at none
    exact absurd first none
  | generic dotted path fit joined each =>
    rw [List.append_assoc] at first
    exact absurd first (noPath _ path)
  | @optional r inner =>
    cases first
    exact ⟨r, rfl, inner⟩
  | @required r inner =>
    cases first
    exact ⟨r, rfl, inner⟩
  | _ =>
    cases first
    rcases isMark with same | same <;> cases same

/-- A phrase with a question mark in front is a phrase without it. -/
theorem IsPhrase.exists_optional (h : IsPhrase fits s) (first : s.head? = some '?') :
    ∃ r, s = '?' :: r ∧ IsPhrase fits r := by
  obtain ⟨piece, after, rfl, member, exchange⟩ := h.exists_first
  rw [member.regular.tight.head?_append] at first
  obtain ⟨r, rfl, inner⟩ := member.exists_unmarked (.inl rfl) first
  exact ⟨r ++ after, rfl, exchange r inner⟩

/-! ## Arguments -/

theorem IsPhrase.unmarked (h : IsPhrase fits s) : IsMarkedPhrase fits s := by
  have whole := h.markedPhrase false
  rwa [show optionalMark false = [] from rfl, List.append_nil] at whole

/-- **The type of an argument is a phrase**, perhaps with an equals sign behind it. -/
theorem IsArgument.type_read (h : IsArgument fits s) :
    IsMarkedPhrase fits (Argument.read s).type := by
  cases h with
  | @mk r isRest isOptional type =>
    have regular := type.regular
    have marked := type.markedPhrase isOptional
    have noRest : (withoutRestMark (restMark isRest ++ (r ++ optionalMark isOptional))).1 =
        r ++ optionalMark isOptional := by
      cases isRest with
      | false =>
        refine congrArg Prod.fst (withoutRestMark_eq_self marked.item.tight ?_)
        rw [regular.tight.head?_append]
        exact regular.head?_ne rfl
      | true => exact congrArg Prod.fst (withoutRestMark_dots marked.item.tight)
    show IsMarkedPhrase fits (withoutOptionalMark (withoutRestMark _).1).1
    rw [noRest]
    by_cases first : r.head? = some '?'
    · obtain ⟨inner, rfl, phrase⟩ := type.exists_optional first
      have marked' := phrase.markedPhrase isOptional
      rw [List.cons_append, withoutOptionalMark_cons marked'.item.tight]
      exact marked'
    · cases isOptional with
      | false =>
        rw [show optionalMark false = [] from rfl, List.append_nil,
          withoutOptionalMark_eq_self regular.tight first (regular.getLast?_ne rfl)]
        exact type.unmarked
      | true =>
        rw [show optionalMark true = ['='] from rfl, withoutOptionalMark_concat regular.tight first]
        exact type.unmarked

/-- No argument is taken for a binding of `this` or `new`. -/
theorem IsArgument.bindsContext_eq_false (h : IsArgument fits s) : bindsContext s = false := by
  obtain ⟨c, first, solid⟩ := h.item.tight.first
  have bare := Text.trimStart_eq_self first solid
  cases h with
  | @mk r isRest isOptional type =>
    cases isRest with
    | false =>
      obtain ⟨word, rest, starts, noColon⟩ := (type.markedPhrase isOptional).exists_start
      exact TypeExpr.bindsContext_eq_false bare starts noColon
    | true =>
      have starts : StartsWith (restMark true ++ (r ++ optionalMark isOptional)) []
          (restMark true ++ (r ++ optionalMark isOptional)) := by
        refine ⟨rfl, fun c mem => absurd mem List.not_mem_nil, ?_⟩
        rintro c first
        cases first
        decide
      refine TypeExpr.bindsContext_eq_false bare starts ?_
      rw [bare]
      rintro first
      cases first

/-- The entries of a function type are its arguments. -/
theorem readArguments_listed {pieces : List (List Char)} (listed : Listed pieces s)
    (each : ∀ piece ∈ pieces, IsArgument fits piece) :
    readArguments s = pieces.map Argument.read := by
  have kept : pieces.filter (fun entry => !bindsContext entry) = pieces := by
    rw [List.filter_eq_self]
    intro piece mem
    rw [(each piece mem).bindsContext_eq_false]
    rfl
  rw [readArguments, Item.splitOutside_listed (fun piece mem => (each piece mem).item) listed, kept]

/-! ## Function types -/

/-- A phrase that is a function type as a whole. All that stands behind the colon is the return type. -/
inductive IsCall (fits : List Char → Nat → Prop) : List Char → Prop
  | bare {pieces : List (List Char)} {s : List Char} (listed : Listed pieces s)
      (each : ∀ piece ∈ pieces, IsArgument fits piece) :
      IsCall fits ("function".toList ++ '(' :: (s ++ ')' :: []))
  | returns {pieces : List (List Char)} {s r : List Char} (before after : Nat)
      (listed : Listed pieces s) (each : ∀ piece ∈ pieces, IsArgument fits piece)
      (type : IsMarkedPhrase fits r) :
      IsCall fits ("function".toList ++
        '(' :: (s ++ ')' :: (Text.pad before ++ ':' :: (Text.pad after ++ r))))

/-- **A phrase is a function type as a whole, or it is not read as a function type.** -/
theorem IsMarkedPhrase.isCall_or (h : IsMarkedPhrase fits s) :
    IsCall fits s ∨ Signature.read? s = none := by
  have tight := h.item.tight
  obtain ⟨first, n, more, rfl, member, closed, next, exchange⟩ := h.exists_cut
  rcases member.opening_or with ⟨t, word, rest, opening, noCall⟩ |
    ⟨pieces, inner, tail, rfl, listed, each, rfl | ⟨before, after, r, rfl, returns⟩⟩
  · refine .inr (Signature.read?_eq_none (opening.startsWith_append n next) ?_)
    by_cases paren : (Text.trimStart (rest ++ (Text.pad n ++ more))).head? = some '('
    · refine .inl ((opening.call_append n next paren).resolve_right ?_)
      rw [noCall]
      exact Bool.false_ne_true
    · exact .inr paren
  · -- Behind the parenthesis there is nothing, or a mark or a bar, which is no return type.
    rw [call_append, List.nil_append]
    cases more with
    | nil =>
      rw [closed rfl, Text.pad_zero, List.append_nil]
      exact .inl (.bare listed each)
    | cons c more =>
      right
      have other : c ≠ ':' ∧ Text.isBlank c = false := by
        rcases next c rfl with rfl | rfl <;> decide
      rw [← List.append_assoc] at tight
      have behind := tight.of_append (s := c :: more) rfl other.2
      have items : ∀ piece ∈ pieces, Item piece := fun piece mem => (each piece mem).item
      rw [Signature.read?_function (Item.nested_listed items listed),
        readReturns?_eq_none behind other.1 n]
      rfl
  · rw [returns_append]
    exact .inl (.returns before after listed each (exchange r returns))

end Ambient.TypeExpr
