import Ambient.Proofs.TypeExpr.Spelling
/-!
# Both ends of spelled types

The patterns of type expressions look at the ends of a text first, and there they may take it apart
across its own structure. `[]` behind the last member of a union, or behind a return type, is taken
for the whole; `?` in front of the first member of a union makes a whole argument optional. What they
leave is a spelling again, of a tree with the same rendering but for the brackets.

## Main definitions

* `DocType.Opening`: the word that a spelling starts with, and what may stand behind it.
* `DocType.UnionCut`: a union cut behind its first member.
* `DocType.SpellsMarked`: a spelling with an equals sign behind it or not.
* `DocType.ElementCut`: a spelling cut in front of the brackets at its end.

## Main statements

* `DocType.Spells.exists_opening`: where the first word of a spelling ends.
* `DocType.SpellsMarked.exists_unmarked`: without `?` in front, a spelling spells a type.
* `DocType.Spells.elementCut`: without `[]` at its end, a spelling spells an element type.
-/

namespace Ambient.DocType

open TypeExpr

/-! ## The front -/

/-- Whether the tree is a function type. -/
def isFunction : DocType → Bool
  | .function .. => true
  | _ => false

/-- Whether the tree is marked by `!`. -/
def isRequired : DocType → Bool
  | .required _ => true
  | _ => false

/-- The word that the spelling of a tree starts with, which may be empty, and what may stand behind
it. -/
structure Opening (t : DocType) (s word rest : List Char) : Prop extends StartsWith s word rest where
  solid : ∀ c, rest.head? = some c → Text.isBlank c = false
  noColon : rest.head? ≠ some ':'
  call : rest.head? = some '(' → word = [] ∨ t.isFunction = true
  optional : rest.head? = some '?' → t.isOptional = true
  required : rest.head? = some '!' → t.isRequired = true

/-- A character that may stand behind the first word of a path, a list or a generic application. -/
def continuesWord (c : Char) : Bool :=
  References.isJoint c || c == '<' || c == '['

namespace Opening

variable {t : DocType} {s word rest : List Char}

theorem of_continuesWord (chars : ∀ c ∈ word, isWordChar c = true)
    (next : ∀ c, rest.head? = some c → continuesWord c = true) :
    Opening t (word ++ rest) word rest := by
  have excluded : ∀ c, continuesWord c = false → rest.head? ≠ some c := by
    intro c other first
    rw [next c first] at other
    cases other
  have classes : ∀ c, continuesWord c = true →
      Text.isNameChar c = false ∧ Text.isBlank c = false := by
    intro c continues
    simp only [continuesWord, References.isJoint, Bool.or_eq_true, beq_iff_eq] at continues
    rcases continues with ((((rfl | rfl) | rfl) | rfl) | rfl) | rfl <;> decide
  refine ⟨⟨rfl, chars, fun c first => (classes c (next c first)).1⟩,
    fun c first => (classes c (next c first)).2, excluded ':' rfl, ?_, ?_, ?_⟩
  · exact fun first => absurd first (excluded '(' rfl)
  · exact fun first => absurd first (excluded '?' rfl)
  · exact fun first => absurd first (excluded '!' rfl)

/-- A path with a list or a generic application begun behind it. -/
theorem of_isPath {base : List Char} (path : IsPath base)
    (next : ∀ c, rest.head? = some c → continuesWord c = true) :
    ∃ word rest', Opening t (base ++ rest) word rest' := by
  obtain ⟨word, more, rfl, _, chars, joint⟩ := path.exists_word
  refine ⟨word, more ++ rest, ?_⟩
  rw [List.append_assoc]
  refine of_continuesWord chars fun c first => ?_
  cases more with
  | nil => exact next c first
  | cons d more =>
    cases first
    have joined := joint c rfl
    simp [continuesWord, joined]

/-- A spelling that starts with no word. -/
theorem of_mark {c : Char} (name : Text.isNameChar c = false) (solid : Text.isBlank c = false)
    (noColon : c ≠ ':') (optional : c = '?' → t.isOptional = true)
    (required : c = '!' → t.isRequired = true) : Opening t (c :: s) [] (c :: s) := by
  refine ⟨⟨rfl, fun d mem => absurd mem List.not_mem_nil, ?_⟩, ?_, ?_, ?_, ?_, ?_⟩
  · rintro d first
    cases first
    exact name
  · rintro d first
    cases first
    exact solid
  · rintro first
    cases first
    exact noColon rfl
  · exact fun _ => .inl rfl
  · rintro first
    cases first
    exact optional rfl
  · rintro first
    cases first
    exact required rfl

/-- The word `function` with its parenthesis. -/
theorem of_isFunction (function : t.isFunction = true) (more : List Char) :
    Opening t ("function".toList ++ '(' :: more) "function".toList ('(' :: more) := by
  have chars : "function".toList.all isWordChar = true := by decide
  refine ⟨⟨rfl, List.all_eq_true.1 chars, ?_⟩, ?_, ?_, fun _ => .inr function, ?_, ?_⟩
  · rintro c first
    cases first
    decide
  · rintro c first
    cases first
    rfl
  all_goals
    rintro first
    cases first

/-- Brackets behind a spelling do not change how it starts. -/
theorem list (h : Opening t s word rest) (fits : t.takesBrackets = true) :
    Opening t.list (s ++ ['[', ']']) word (rest ++ ['[', ']']) := by
  have noFunction : t.isFunction = false := by cases t <;> first | rfl | cases fits
  have noOptional : t.isOptional = false := by cases t <;> first | rfl | cases fits
  have noRequired : t.isRequired = false := by cases t <;> first | rfl | cases fits
  cases rest with
  | nil =>
    rw [h.whole, List.append_nil, List.nil_append]
    refine of_continuesWord h.chars fun c first => ?_
    cases first
    rfl
  | cons d rest =>
    refine ⟨⟨by rw [h.whole, List.append_assoc], h.chars, h.next⟩, h.solid, h.noColon, ?_, ?_, ?_⟩
    · intro first
      refine .inl ((h.call first).resolve_right ?_)
      rw [noFunction]
      exact Bool.false_ne_true
    · intro first
      have marked := h.optional first
      rw [noOptional] at marked
      cases marked
    · intro first
      have marked := h.required first
      rw [noRequired] at marked
      cases marked

section Continued

variable (h : Opening t s word rest) (n : Nat) {more : List Char}
  (next : ∀ c, more.head? = some c → c = '=' ∨ c = '|')

include h next

/-- The first word stays the first in front of an equals sign or a bar. -/
theorem startsWith_append :
    StartsWith (s ++ (Text.pad n ++ more)) word (rest ++ (Text.pad n ++ more)) := by
  refine ⟨by rw [h.whole, List.append_assoc], h.chars, fun c first => ?_⟩
  cases rest with
  | cons d rest => exact h.next c first
  | nil =>
    cases n with
    | zero => rcases next c first with rfl | rfl <;> decide
    | succ n =>
      cases first
      decide

/-- The first character behind the word that is no blank. -/
theorem head?_trimStart {c : Char}
    (first : (Text.trimStart (rest ++ (Text.pad n ++ more))).head? = some c) :
    rest.head? = some c ∨ c = '=' ∨ c = '|' := by
  cases rest with
  | cons d rest =>
    rw [List.cons_append, Text.trimStart_eq_self rfl (h.solid d rfl)] at first
    exact .inl first
  | nil =>
    rw [List.nil_append, Text.trimStart_append fun _ => Text.isBlank_of_mem_pad] at first
    cases more with
    | nil => cases first
    | cons d more =>
      have solid : Text.isBlank d = false := by
        rcases next d rfl with rfl | rfl <;> rfl
      rw [Text.trimStart_eq_self rfl solid] at first
      exact .inr (next c first)

theorem noColon_append : (Text.trimStart (rest ++ (Text.pad n ++ more))).head? ≠ some ':' := by
  intro first
  rcases h.head?_trimStart n next first with first | same | same
  · exact h.noColon first
  · cases same
  · cases same

theorem call_append (first : (Text.trimStart (rest ++ (Text.pad n ++ more))).head? = some '(') :
    word = [] ∨ t.isFunction = true := by
  rcases h.head?_trimStart n next first with first | same | same
  · exact h.call first
  · cases same
  · cases same

end Continued

end Opening

/-- **The first word of a spelling.** -/
theorem Spells.exists_opening {t : DocType} {s : List Char} (spelled : Spells t s) :
    t.isUnion = false → ∃ word rest, Opening t s word rest := by
  refine Spells.induction (P := fun t s => t.isUnion = false → ∃ word rest, Opening t s word rest)
    ?_ spelled
  intro t s spelled ih noUnion
  cases spelled with
  | name isName =>
    have opening : ∃ word rest, Opening (.name s) (s ++ []) word rest :=
      Opening.of_isPath isName.1 fun c first => by cases first
    rwa [List.append_nil] at opening
  | anything =>
    exact ⟨_, _, .of_mark rfl rfl (by decide) (fun same => absurd same (by decide))
      fun same => absurd same (by decide)⟩
  | array dotted element =>
    rw [List.append_assoc]
    refine Opening.of_isPath isPath_array fun c first => ?_
    cases dotted <;> cases first <;> rfl
  | list fits element =>
    obtain ⟨word, rest, opening⟩ := ih _ _ (by simp) element (isUnion_of_takesBrackets fits)
    exact ⟨word, _, opening.list fits⟩
  | dictionary dotted spelledKey spelledValue joined =>
    rw [List.append_assoc]
    refine Opening.of_isPath isPath_object fun c first => ?_
    cases dotted <;> cases first <;> rfl
  | generic dotted isName noObject each joined =>
    rw [List.append_assoc]
    refine Opening.of_isPath isName.1 fun c first => ?_
    cases dotted <;> cases first <;> rfl
  | procedure each listed => exact ⟨_, _, .of_isFunction rfl _⟩
  | function before after each listed noUnion returns => exact ⟨_, _, .of_isFunction rfl _⟩
  | union several noUnions each joined => cases noUnion
  | group inner =>
    exact ⟨_, _, .of_mark rfl rfl (by decide) (fun same => absurd same (by decide))
      fun same => absurd same (by decide)⟩
  | record each joined =>
    exact ⟨_, _, .of_mark rfl rfl (by decide) (fun same => absurd same (by decide))
      fun same => absurd same (by decide)⟩
  | optional noUnion inner =>
    exact ⟨_, _, .of_mark rfl rfl (by decide) (fun _ => rfl)
      fun same => absurd same (by decide)⟩
  | required noUnion inner =>
    exact ⟨_, _, .of_mark rfl rfl (by decide) (fun same => absurd same (by decide))
      fun _ => rfl⟩

/-- A spelling other than a union starts with `?` if its tree is marked so, and only then. -/
theorem Spells.head?_eq_optional_iff {t : DocType} {s : List Char} (spelled : Spells t s)
    (noUnion : t.isUnion = false) : s.head? = some '?' ↔ t.isOptional = true := by
  constructor
  · intro first
    obtain ⟨word, rest, opening⟩ := spelled.exists_opening noUnion
    cases word with
    | nil =>
      rw [opening.whole] at first
      exact opening.optional first
    | cons c word =>
      rw [opening.whole] at first
      cases first
      have char := opening.chars '?' List.mem_cons_self
      cases char
  · intro optional
    cases spelled <;> cases optional
    rfl

theorem Spells.head?_ne_required {t : DocType} {s : List Char} (spelled : Spells t s)
    (noUnion : t.isUnion = false) (noMark : t.isRequired = false) : s.head? ≠ some '!' := by
  intro first
  obtain ⟨word, rest, opening⟩ := spelled.exists_opening noUnion
  cases word with
  | nil =>
    rw [opening.whole] at first
    rw [opening.required first] at noMark
    cases noMark
  | cons c word =>
    rw [opening.whole] at first
    cases first
    have char := opening.chars '!' List.mem_cons_self
    cases char

/-! ## The first member of a union -/

/-- A union cut behind its first member. -/
inductive UnionCut : List DocType → List Char → Prop
  | mk {t : DocType} {ts : List DocType} {s rest : List Char} {pieces : List (List Char)}
      (before after : Nat) (first : Spells t s) (noUnion : t.isUnion = false)
      (others : List.Forall₂ Spells ts pieces) (noUnions : ∀ u ∈ ts, u.isUnion = false)
      (joined : Joined '|' pieces rest) :
      UnionCut (t :: ts) (s ++ Text.pad before ++ '|' :: (Text.pad after ++ rest))

theorem Spells.unionCut {members : List DocType} {s : List Char}
    (spelled : Spells (.union members) s) : UnionCut members s := by
  cases spelled with
  | union several noUnion each joined =>
    cases joined with
    | single piece =>
      have one := each.length_eq
      simp only [List.length_singleton] at one
      omega
    | cons piece before after tail =>
      cases each with
      | cons first others =>
        rw [List.forall_mem_cons] at noUnion
        exact .mk before after first noUnion.1 others noUnion.2 tail

theorem UnionCut.spells {members : List DocType} {s : List Char} (cut : UnionCut members s) :
    Spells (.union members) s := by
  cases cut with
  | @mk t ts piece rest pieces before after first noUnion others noUnions joined =>
    refine .union ?_ ?_ (.cons first others) (.cons piece before after joined)
    · have filled := List.length_pos_iff.2 joined.ne_nil
      rw [← others.length_eq] at filled
      rw [List.length_cons]
      omega
    · rw [List.forall_mem_cons]
      exact ⟨noUnion, noUnions⟩

/-- A union has a bar behind a nested text. -/
theorem Spells.exists_bar {members : List DocType} {s : List Char}
    (spelled : Spells (.union members) s) (more : List Char) : ∃ front n rest,
      s ++ more = front ++ (Text.pad n ++ '|' :: rest) ∧ Nested (fun _ => True) front := by
  cases spelled.unionCut with
  | @mk t ts piece rest pieces before after first noUnion others noUnions joined =>
    exact ⟨piece, before, Text.pad after ++ rest ++ more, by simp, first.regular.nested.anywhere⟩

/-! ## Marked spellings -/

/-- A text spells a tree, perhaps with an equals sign behind it. -/
inductive SpellsMarked : DocType → List Char → Prop
  | mk {t : DocType} {s : List Char} (spelled : Spells t s) (isOptional : Bool) :
      SpellsMarked t (s ++ optionalMark isOptional)

theorem Spells.unmarked {t : DocType} {s : List Char} (spelled : Spells t s) :
    SpellsMarked t s := by
  have marked := SpellsMarked.mk spelled false
  rwa [show optionalMark false = [] from rfl, List.append_nil] at marked

section Marked

variable {t : DocType} {s : List Char}

theorem SpellsMarked.item (marked : SpellsMarked t s) : Item s := by
  cases marked with
  | mk spelled isOptional => exact spelled.regular.item_argument false isOptional

theorem SpellsMarked.head?_ne (marked : SpellsMarked t s) {c : Char}
    (other : startsType c = false) : s.head? ≠ some c := by
  cases marked with
  | @mk s spelled isOptional =>
    rw [spelled.regular.tight.head?_append]
    exact spelled.regular.head?_ne other

/-- No bars stand outside of brackets but in unions. -/
theorem SpellsMarked.nested_bar (marked : SpellsMarked t s) (noUnion : t.isUnion = false) :
    Nested (· ≠ '|') s := by
  cases marked with
  | @mk s spelled isOptional =>
    refine Nested.append (spelled.regular.nested.mono fun c ⟨_, bar⟩ same => ?_) ?_
    · have union := bar same
      rw [noUnion] at union
      cases union
    · cases isOptional with
      | false => exact .nil
      | true => exact .plain rfl rfl (by decide) .nil

theorem SpellsMarked.splitOutside_bar (marked : SpellsMarked t s) (noUnion : t.isUnion = false) :
    splitOutside '|' s = [s] :=
  splitOutside_single (marked.nested_bar noUnion) marked.item.tight rfl rfl (by decide)

/-- A union is split into its members. -/
theorem splitOutside_bars {members : List DocType} {pieces : List (List Char)}
    (each : List.Forall₂ SpellsMarked members pieces) (noUnion : ∀ t ∈ members, t.isUnion = false)
    (joined : Joined '|' pieces s) : splitOutside '|' s = pieces := by
  refine joined.splitOutside_eq (fun piece mem => ?_) (fun piece mem => ?_) rfl rfl (by decide)
  · obtain ⟨t, mem', marked⟩ := exists_of_mem_forall₂ each piece mem
    exact marked.nested_bar (noUnion t mem')
  · obtain ⟨t, _, marked⟩ := exists_of_mem_forall₂ each piece mem
    exact marked.item.tight

/-- An equals sign behind joined spellings stands behind the last one. -/
theorem exists_marked_joined {separator : Char} {types : List DocType} {pieces : List (List Char)}
    (joined : Joined separator pieces s) (each : List.Forall₂ Spells types pieces)
    (isOptional : Bool) : ∃ pieces', Joined separator pieces' (s ++ optionalMark isOptional) ∧
      List.Forall₂ SpellsMarked types pieces' := by
  induction joined generalizing types with
  | single piece =>
    cases each with
    | cons spelled others =>
      cases others
      exact ⟨_, .single _, .cons (.mk spelled isOptional) .nil⟩
  | cons piece before after tail ih =>
    cases each with
    | cons spelled others =>
      obtain ⟨pieces', joined', each'⟩ := ih others
      refine ⟨piece :: pieces', ?_, .cons spelled.unmarked each'⟩
      have whole := Joined.cons piece before after joined'
      simpa using whole

end Marked

theorem head?_optionalMark {isOptional : Bool} {c : Char}
    (first : (optionalMark isOptional).head? = some c) : c = '=' ∨ c = '|' := by
  cases isOptional with
  | false => cases first
  | true =>
    cases first
    exact .inl rfl

/-- Whether the tree, or the first member of the union that it is, is a function type. -/
def startsWithCall : DocType → Bool
  | .union (.function .. :: _) => true
  | .function .. => true
  | _ => false

theorem startsWithCall_of_isFunction {t : DocType} (h : t.isFunction = true) :
    t.startsWithCall = true := by
  cases t <;> first | rfl | cases h

theorem startsWithCall_union {t : DocType} {ts : List DocType} (h : t.isFunction = true) :
    (DocType.union (t :: ts)).startsWithCall = true := by
  cases t <;> first | rfl | cases h

/-- **The first word of a marked spelling.** No colon stands behind it, and a parenthesis only if it
is that of a function type. -/
theorem SpellsMarked.exists_start {t : DocType} {s : List Char} (marked : SpellsMarked t s) :
    ∃ word rest, StartsWith s word rest ∧ (Text.trimStart rest).head? ≠ some ':' ∧
      ((Text.trimStart rest).head? = some '(' → word = [] ∨ t.startsWithCall = true) := by
  cases marked with
  | @mk s spelled isOptional =>
    cases union : t.isUnion with
    | false =>
      obtain ⟨word, rest, opening⟩ := spelled.exists_opening union
      have next := fun c => @head?_optionalMark isOptional c
      have starts := opening.startsWith_append 0 next
      refine ⟨word, _, starts, opening.noColon_append 0 next, fun first => ?_⟩
      exact (opening.call_append 0 next first).imp_right startsWithCall_of_isFunction
    | true =>
      cases t with
      | union members =>
        cases spelled.unionCut with
        | @mk u us piece rest' pieces before after first noUnion others noUnions joined =>
          obtain ⟨word, rest, opening⟩ := first.exists_opening noUnion
          have next : ∀ c, ('|' :: (Text.pad after ++ rest') ++ optionalMark isOptional).head? =
              some c → c = '=' ∨ c = '|' := by
            rintro c bar
            cases bar
            exact .inr rfl
          have layout : piece ++ Text.pad before ++ '|' :: (Text.pad after ++ rest') ++
              optionalMark isOptional = piece ++ (Text.pad before ++
                ('|' :: (Text.pad after ++ rest') ++ optionalMark isOptional)) := by
            simp
          rw [layout]
          have starts := opening.startsWith_append before next
          refine ⟨word, _, starts, opening.noColon_append before next, fun first => ?_⟩
          exact (opening.call_append before next first).imp_right startsWithCall_union
      | _ => cases union

/-- **Without `?` in front, a marked spelling spells a type of the same rendering.** -/
theorem SpellsMarked.exists_unmarked {t : DocType} {s : List Char} (marked : SpellsMarked t s)
    (first : s.head? = some '?') : ∃ u r, s = '?' :: r ∧ SpellsMarked u r ∧
      (∀ c, t.render c = u.render c) ∧ t.admitsMissing = true := by
  cases marked with
  | @mk s spelled isOptional =>
    rw [spelled.regular.tight.head?_append] at first
    cases union : t.isUnion with
    | false =>
      have optional := (spelled.head?_eq_optional_iff union).1 first
      cases spelled <;> cases optional
      rename_i u r noUnion inner
      exact ⟨u, _, rfl, .mk inner isOptional, fun c => by rw [render], rfl⟩
    | true =>
      cases t with
      | union members =>
        cases spelled.unionCut with
        | @mk u us piece rest pieces before after spelled' noUnion others noUnions joined =>
          rw [List.append_assoc, spelled'.regular.tight.head?_append] at first
          have optional := (spelled'.head?_eq_optional_iff noUnion).1 first
          cases spelled' <;> cases optional
          rename_i v r noUnion' inner
          have cut := UnionCut.mk before after inner noUnion' others noUnions joined
          refine ⟨.union (v :: us), _, rfl, .mk cut.spells isOptional, fun c => ?_, rfl⟩
          rw [render, render, renderAll, renderAll, render]
      | _ => cases union

/-! ## Brackets at the end -/

/-- A spelling with brackets at its end, split in front of them. -/
inductive ElementCut (t : DocType) : List Char → Prop
  | mk {u : DocType} {r : List Char} (spelled : Spells u r)
      (rendering : ∀ c, t.render c = u.render c ++ "[]")
      (noUnion : t.isUnion = false → u.isUnion = false) : ElementCut t (r ++ ['[', ']'])

/-- The brackets at the end of joined spellings belong to the last one. -/
theorem exists_element_joined {members : List DocType} {pieces : List (List Char)} {s : List Char}
    (joined : Joined '|' pieces s) (each : List.Forall₂ Spells members pieces)
    (noUnion : ∀ t ∈ members, t.isUnion = false)
    (cuts : ∀ t ∈ members, ∀ piece ∈ pieces, Spells t piece → piece.getLast? = some ']' →
      ElementCut t piece)
    (last : s.getLast? = some ']') :
    ∃ members' pieces' r, s = r ++ ['[', ']'] ∧ Joined '|' pieces' r ∧
      List.Forall₂ Spells members' pieces' ∧ (∀ t ∈ members', t.isUnion = false) ∧
      members'.length = members.length ∧
      ∀ c, Text.joinWith "|" (members.map (render c)) =
        Text.joinWith "|" (members'.map (render c)) ++ "[]" := by
  induction joined generalizing members with
  | single piece =>
    cases each with
    | @cons t _ ts _ spelled others =>
      cases others
      have cut := cuts t List.mem_cons_self piece List.mem_cons_self spelled last
      rw [List.forall_mem_singleton] at noUnion
      cases cut with
      | @mk u r spelled' rendering noUnion' =>
        refine ⟨[u], [r], r, rfl, .single r, .cons spelled' .nil, ?_, rfl, fun c => ?_⟩
        · rw [List.forall_mem_singleton]
          exact noUnion' noUnion
        · exact rendering c
  | @cons piece before after pieces rest tail ih =>
    cases each with
    | @cons t _ ts _ spelled others =>
      rw [List.forall_mem_cons] at noUnion
      have outlines : ∀ piece ∈ pieces, ∃ c, piece.getLast? = some c ∧ endsType c = true := by
        intro piece mem
        obtain ⟨u, _, inner⟩ := exists_of_mem_forall₂ others piece mem
        exact inner.regular.last
      -- The brackets stand in the rest, where they belong to its last piece.
      obtain ⟨d, ending, _⟩ := tail.getLast? outlines
      have lastRest : rest.getLast? = some ']' := by
        rw [Text.getLast?_spaced ending _ '|' after] at last
        exact ending.trans last
      obtain ⟨ts', pieces', r, rfl, joined', each', noUnion', length, rendering⟩ :=
        ih others noUnion.2 (fun u mem piece mem' =>
          cuts u (List.mem_cons_of_mem t mem) piece (List.mem_cons_of_mem _ mem')) lastRest
      refine ⟨t :: ts', piece :: pieces', piece ++ Text.pad before ++ '|' :: (Text.pad after ++ r),
        by simp, .cons piece before after joined', .cons spelled each', ?_, ?_, fun c => ?_⟩
      · rw [List.forall_mem_cons]
        exact ⟨noUnion.1, noUnion'⟩
      · rw [List.length_cons, List.length_cons, length]
      · have filled' : ts'.map (render c) ≠ [] := by
          rw [← List.length_pos_iff, List.length_map, each'.length_eq, List.length_pos_iff]
          exact joined'.ne_nil
        have filled : ts.map (render c) ≠ [] := by
          rw [← List.length_pos_iff, List.length_map, ← length, each'.length_eq,
            List.length_pos_iff]
          exact joined'.ne_nil
        rw [List.map_cons, List.map_cons, Text.joinWith_cons _ _ filled,
          Text.joinWith_cons _ _ filled', rendering c, String.append_assoc, String.append_assoc,
          String.append_assoc]

/-- A part that ends the spelling of a tree and the rendering of it is cut instead of the tree. -/
theorem ElementCut.inside (make : DocType → DocType) (front : Config → String) (before : List Char)
    {u : DocType} {r : List Char} (cut : ElementCut u r) (noUnion : u.isUnion = false)
    (spells : ∀ v r', v.isUnion = false → Spells v r' → Spells (make v) (before ++ r'))
    (rendering : ∀ c v, (make v).render c = front c ++ v.render c)
    (closed : ∀ v, (make v).isUnion = false) : ElementCut (make u) (before ++ r) := by
  cases cut with
  | @mk v r spelled same noUnion' =>
    rw [← List.append_assoc]
    refine .mk (spells v r (noUnion' noUnion) spelled) (fun c => ?_) fun _ => closed v
    rw [rendering, rendering, same, String.append_assoc]

/-- **Without `[]` at its end, a spelling spells an element type.** -/
theorem Spells.elementCut {t : DocType} {s : List Char} (spelled : Spells t s) :
    s.getLast? = some ']' → ElementCut t s := by
  refine Spells.induction (P := fun t s => s.getLast? = some ']' → ElementCut t s) ?_ spelled
  intro t s spelled ih last
  -- Most spellings end in another bracket.
  have other : ∀ before inner o k, s = before ++ o :: (inner ++ [k]) → k ≠ ']' →
      ElementCut t s := by
    rintro before inner o k rfl other
    rw [getLast?_wrapped] at last
    cases last
    exact absurd rfl other
  cases spelled with
  | name isName =>
    obtain ⟨c, ending, word⟩ := isName.1.last
    rw [ending] at last
    cases last
    cases word
  | anything => cases last
  | array dotted element => exact other _ _ _ _ rfl (by decide)
  | list fits element =>
    exact .mk element (fun c => by rw [render]) fun _ => isUnion_of_takesBrackets fits
  | dictionary dotted spelledKey spelledValue joined => exact other _ _ _ _ rfl (by decide)
  | generic dotted isName noObject each joined => exact other _ _ _ _ rfl (by decide)
  | procedure each listed => exact other _ _ _ _ rfl (by decide)
  | @function arguments pieces s u r before after each listed noUnion returns =>
    have layout := fun r' => returns_append (r := []) s before after r'
    simp only [List.append_nil, List.nil_append] at layout
    rw [getLast?_returns s before after returns.regular.tight] at last
    rw [← layout]
    refine ElementCut.inside (fun v => .function arguments (some v))
      (fun c => "(" ++ Text.joinWith ", " (renderArguments c 0 false arguments) ++ ") => ") _
      (ih u r ?_ returns last) noUnion (fun v r' noUnion spelled => ?_) (fun c v => ?_) fun v => rfl
    · simp only [List.length_append, List.length_cons]
      omega
    · rw [layout]
      exact .function before after each listed noUnion spelled
    · rw [render, renderReturns]
  | @union members pieces s several noUnion each joined =>
    have inside : ∀ piece ∈ pieces, piece.length < s.length :=
      joined.length_lt (by rw [← each.length_eq]; exact several)
    obtain ⟨members', pieces', r, rfl, joined', each', noUnion', length, rendering⟩ :=
      exists_element_joined joined each noUnion
        (fun u mem piece mem' inner => ih u piece (inside piece mem') inner) last
    refine .mk (.union (by rw [length]; exact several) noUnion' each' joined') (fun c => ?_)
      fun union => by cases union
    rw [render, render, renderAll_eq_map, renderAll_eq_map]
    exact rendering c
  | group inner => exact other [] _ _ _ rfl (by decide)
  | record each joined => exact other [] _ _ _ rfl (by decide)
  | @optional u r noUnion inner =>
    have lastInner : r.getLast? = some ']' :=
      (inner.regular.tight.getLast?_append ['?']).symm.trans last
    refine ElementCut.inside .optional (fun _ => "") ['?']
      (ih u r (Nat.lt_succ_self _) inner lastInner) noUnion (fun v r' => .optional) (fun c v => ?_)
      fun v => rfl
    rw [render, String.empty_append]
  | @required u r noUnion inner =>
    have lastInner : r.getLast? = some ']' :=
      (inner.regular.tight.getLast?_append ['!']).symm.trans last
    refine ElementCut.inside .required (fun _ => "") ['!']
      (ih u r (Nat.lt_succ_self _) inner lastInner) noUnion (fun v r' => .required) (fun c v => ?_)
      fun v => rfl
    rw [render, String.empty_append]

end Ambient.DocType
