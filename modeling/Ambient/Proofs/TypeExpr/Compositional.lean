import Ambient.Proofs.TypeExpr.Arguments
import Ambient.Proofs.TypeExpr.Elements
/-!
# Translating documented types

The text of a documented type is translated to the rendering of its tree, for every tree and every
one of its spellings. The patterns of the translator overlap and are tried in a fixed order, and two
of them cut across the tree: `[]` at the end is looked for before anything else, and a function type
takes all that follows its colon for the return type, bars included. The rendering comes out the same,
since what is cut out of order spells a tree of its own.

The induction is on the length of the text and not on the tree: a part that is cut out of order is
shorter, but it is no part of the tree.

## Main definitions

* `DocType.TranslatesBelow`: the induction hypothesis.

## Main statements

* `DocType.translation_step`: one step of the induction, by the kinds of trees.
* `DocType.translation_eq_render`: every marked spelling is translated to the rendering of its tree.
* `Config.typeText_eq_render`: the translator is compositional.
-/

namespace Ambient.DocType

open TypeExpr

variable {c : Config} {t : DocType} {s : List Char}

/-! ## Replacements -/

section Replacements

variable (names : ∀ key ∈ c.typeReplacements.keys, IsPath key.toList)

include names

/-- Only names and single characters are replaced. -/
theorem replacement?_eq_none {d : Char} (mem : d ∈ s) (other : isPathChar d = false)
    (long : 2 ≤ s.length) : c.replacement? (String.ofList s) = none := by
  refine Config.replacement?_eq_none_iff.2 ⟨fun key => ?_, ?_⟩
  · have path := names _ key
    rw [String.toList_ofList] at path
    exact path.not_mem other mem
  · simp only [Config.builtinReplacements, List.map_cons, List.map_nil, List.mem_cons,
      List.not_mem_nil, or_false, not_or]
    refine ⟨fun same => ?_, fun same => ?_, fun same => ?_, fun same => ?_⟩ <;>
      have text := congrArg String.toList same <;> rw [String.toList_ofList] at text
    · rw [text] at long
      exact absurd long (by decide)
    · rw [text] at long
      exact absurd long (by decide)
    · exact isPath_object.not_mem other (text ▸ mem)
    · exact isPath_function.not_mem other (text ▸ mem)

/-- A text with a pair of brackets in it is not replaced. -/
theorem replacement?_wrapped (before inner after : List Char) {o : Char} (k : Char)
    (other : isPathChar o = false) :
    c.replacement? (String.ofList (before ++ o :: (inner ++ k :: after))) = none := by
  refine replacement?_eq_none names (List.mem_append_right before List.mem_cons_self) other ?_
  simp only [List.length_append, List.length_cons]
  omega

end Replacements

/-! ## Parts -/

/-- Marked spellings below a length are translated to the renderings of their trees. -/
def TranslatesBelow (c : Config) (n : Nat) : Prop :=
  ∀ u r, r.length < n → SpellsMarked u r → c.translation r = u.render c

theorem TranslatesBelow.map {n : Nat} {types : List DocType} {pieces : List (List Char)}
    (below : TranslatesBelow c n) (each : List.Forall₂ SpellsMarked types pieces)
    (shorter : ∀ piece ∈ pieces, piece.length < n) :
    pieces.map c.translation = renderAll c types := by
  induction each with
  | nil => rfl
  | cons marked _ ih =>
    rw [List.forall_mem_cons] at shorter
    rw [List.map_cons, renderAll, below _ _ shorter.1 marked, ih shorter.2]

/-- The entries of a record are read and translated one by one. -/
theorem texts_eq_renderFields {n : Nat} {fields : List (List Char × DocType)}
    {pieces : List (List Char)} (each : List.Forall₂ SpellsField fields pieces)
    (below : TranslatesBelow c n) (shorter : ∀ piece ∈ pieces, piece.length < n) :
    (pieces.map TypeExpr.Field.read).map (fun field => (field.map c.translation).text) =
      renderFields c fields := by
  induction each with
  | nil => rfl
  | cons spelled _ ih =>
    rw [List.forall_mem_cons] at shorter
    rw [List.map_cons, List.map_cons, ih shorter.2]
    cases spelled with
    | @mk key t s before after identifier type =>
      have regular := type.regular
      have inner : c.translation s = t.render c := by
        refine below t s (Nat.lt_of_le_of_lt ?_ shorter.1) type.unmarked
        simp only [List.length_append, List.length_cons]
        omega
      rw [TypeExpr.Field.read_keyed identifier regular.tight regular.oneLine, renderFields, ← inner]
      rfl

/-- A text that does not start like a function type is none. -/
theorem SpellsMarked.read?_eq_none (marked : SpellsMarked t s) (noCall : t.startsWithCall = false) :
    Signature.read? s = none := by
  obtain ⟨word, rest, starts, _, call⟩ := marked.exists_start
  refine Signature.read?_eq_none starts ?_
  by_cases first : (Text.trimStart rest).head? = some '('
  · refine .inl ((call first).resolve_right ?_)
    rw [noCall]
    exact Bool.false_ne_true
  · exact .inr first

/-- A text that starts with a character of no path is taken by none of the first patterns, unless
brackets stand at its end. -/
theorem SpellsMarked.unclaimed_cons {mark : Char} (marked : SpellsMarked t (mark :: s))
    (noCall : t.startsWithCall = false) (base : isBaseChar mark = false) (angle : mark ≠ '<')
    (noBracket : (mark :: s).getLast? ≠ some ']') : Form.Unclaimed (mark :: s) := by
  have noGeneric : cutGeneric? (mark :: s) = none :=
    cutGeneric?_append_eq_none (Nested.nil : Nested (fun _ => True) []) rfl base angle
  exact ⟨elementOf?_eq_none noBracket noGeneric, noGeneric, marked.read?_eq_none noCall,
    isArrayWord_eq_false List.mem_cons_self (isPathChar_eq_false base)⟩

/-! ## Names -/

/-- A text that is only a name is replaced or stays. -/
theorem translation_of_named (bare : Text.trim s = s) (form : Form.of s = .named) :
    c.translation s = nameText c s := by
  unfold nameText
  cases replaced : c.replacement? (String.ofList s) with
  | some text => exact Config.translation_replaced bare replaced
  | none => exact Config.translation_named bare replaced form

/-- A name is of the form of plain names. -/
theorem form_name (isName : IsName s) : Form.of s = .named := by
  have spelled := Spells.name isName
  have notLast : ∀ {d : Char}, isPathChar d = false → s.getLast? ≠ some d := by
    intro d other last
    exact isName.1.not_mem other (List.mem_of_getLast? last)
  have notFirst : ∀ {d : Char}, isPathChar d = false → s.head? ≠ some d := by
    intro d other first
    exact isName.1.not_mem other (List.mem_of_head? first)
  have noGeneric := cutGeneric?_eq_none_of_not_mem (isName.1.not_mem (c := '<') rfl)
  have unclaimed : Form.Unclaimed s := by
    refine ⟨elementOf?_eq_none (notLast rfl) noGeneric, noGeneric,
      spelled.unmarked.read?_eq_none rfl, ?_⟩
    unfold Form.isArrayWord
    rw [beq_eq_false_iff_ne]
    exact isName.2
  exact unclaimed.of_named (spelled.unmarked.splitOutside_bar rfl)
    (insideBrackets?_eq_none_of_last (notLast rfl))
    (insideBrackets?_eq_none_of_last (notLast rfl))
    (withoutMark?_eq_none (notFirst rfl) (notFirst rfl) (notLast rfl))

theorem translation_name (isName : IsName s) : c.translation s = nameText c s :=
  translation_of_named isName.1.tight.trim_eq (form_name isName)

theorem translation_anything : c.translation ['*'] = nameText c ['*'] :=
  translation_of_named rfl rfl

/-! ## Compound types -/

section Compound

variable (names : ∀ key ∈ c.typeReplacements.keys, IsPath key.toList)

include names

/-- Brackets at the end are taken for an array of all that stands in front of them. -/
theorem translation_brackets (spelled : Spells t s) (last : s.getLast? = some ']')
    (below : TranslatesBelow c s.length) : c.translation s = t.render c := by
  have bare := spelled.regular.tight.trim_eq
  cases spelled.elementCut last with
  | @mk u r spelled' rendering noUnion =>
    have regular := spelled'.regular
    have filled : Text.trim r ≠ [] := by
      rw [regular.tight.trim_eq]
      exact regular.tight.ne_nil
    have form := Form.of_array (elementOf?_brackets filled)
    have free := replacement?_wrapped names r [] [] ']' (o := '[') rfl
    rw [Config.translation_array bare free form, rendering, below u r (by simp) spelled'.unmarked]

theorem translation_array {dotted : Bool} (spelled : Spells t s)
    (below : TranslatesBelow c ("Array".toList ++ dot dotted ++ '<' :: (s ++ ['>'])).length) :
    c.translation ("Array".toList ++ dot dotted ++ '<' :: (s ++ ['>'])) = t.array.render c := by
  have regular := spelled.regular
  have whole := (Spells.array dotted spelled).regular
  have element := elementOf?_path isPath_array (dot_cases dotted) regular.nested.isBalanced
    (regular.getLast?_ne rfl)
  rw [if_pos rfl] at element
  have free := replacement?_wrapped names ("Array".toList ++ dot dotted) s [] '>' (o := '<') rfl
  rw [Config.translation_array whole.tight.trim_eq free (Form.of_array element), render,
    below t s (length_lt_wrapped _ s [] _ _) spelled.unmarked]

theorem translation_dictionary {key value : DocType} {k v : List Char} {dotted : Bool}
    (spelledKey : Spells key k) (spelledValue : Spells value v) (joined : Joined ',' [k, v] s)
    (below : TranslatesBelow c ("Object".toList ++ dot dotted ++ '<' :: (s ++ ['>'])).length) :
    c.translation ("Object".toList ++ dot dotted ++ '<' :: (s ++ ['>'])) =
      (DocType.dictionary key value).render c := by
  have whole := (Spells.dictionary dotted spelledKey spelledValue joined).regular
  have regular : ∀ piece ∈ [k, v], ∃ u, Regular u piece := by
    rw [List.forall_mem_cons, List.forall_mem_singleton]
    exact ⟨⟨key, spelledKey.regular⟩, ⟨value, spelledValue.regular⟩⟩
  have items := Regular.items regular
  have balanced := (Item.nested_joined items joined).isBalanced
  have noArrow := Regular.getLast?_joined_ne regular joined
  have generic := cutGeneric?_path isPath_object (dot_cases dotted) balanced noArrow
  have element := elementOf?_path isPath_object (dot_cases dotted) balanced noArrow
  rw [if_neg (by decide)] at element
  have form := Form.of_dictionary element generic (Item.splitOutside_joined items joined)
  have free := replacement?_wrapped names ("Object".toList ++ dot dotted) s [] '>' (o := '<') rfl
  have shorter := joined.length_lt_wrapped ("Object".toList ++ dot dotted) [] '<' '>'
  rw [List.forall_mem_cons, List.forall_mem_singleton] at shorter
  rw [Config.translation_dictionary whole.tight.trim_eq free form, render,
    below key k shorter.1 spelledKey.unmarked, below value v shorter.2 spelledValue.unmarked]

theorem translation_generic {base : List Char} {args : List DocType} {pieces : List (List Char)}
    {dotted : Bool} (isName : IsName base) (noObject : base ≠ "Object".toList)
    (each : List.Forall₂ Spells args pieces) (joined : Joined ',' pieces s)
    (below : TranslatesBelow c (base ++ dot dotted ++ '<' :: (s ++ ['>'])).length) :
    c.translation (base ++ dot dotted ++ '<' :: (s ++ ['>'])) =
      (DocType.generic base args).render c := by
  have whole := (Spells.generic dotted isName noObject each joined).regular
  have regular := regular_of_spellings each
  have items := Regular.items regular
  have balanced := (Item.nested_joined items joined).isBalanced
  have noArrow := Regular.getLast?_joined_ne regular joined
  have generic := cutGeneric?_path isName.1 (dot_cases dotted) balanced noArrow
  have element := elementOf?_path isName.1 (dot_cases dotted) balanced noArrow
  rw [if_neg isName.ne_array] at element
  have form := Form.of_generic element generic noObject
  rw [Item.splitOutside_joined items joined] at form
  have free := replacement?_wrapped names (base ++ dot dotted) s [] '>' (o := '<') rfl
  have parts := below.map (each.imp fun _ _ inner => Spells.unmarked inner)
    (joined.length_lt_wrapped _ [] _ _)
  rw [Config.translation_generic whole.tight.trim_eq free form, translation_name isName, parts,
    render]

/-- The word `function` with a nested text in parentheses is translated from its signature. -/
theorem translation_signature {outside : Char → Prop} {after : List Char}
    {returns : Option (List Char)} (nested : Nested outside s)
    (found : readReturns? after = some returns)
    (bare : Text.trim ("function".toList ++ '(' :: (s ++ ')' :: after)) =
      "function".toList ++ '(' :: (s ++ ')' :: after))
    (noBracket : ("function".toList ++ '(' :: (s ++ ')' :: after)).getLast? ≠ some ']') :
    c.translation ("function".toList ++ '(' :: (s ++ ')' :: after)) =
      Signature.print ⟨(readArguments s).map (TypeExpr.Argument.map c.translation),
        returns.map c.translation⟩ c.defaultReturnType := by
  have word : Nested (fun _ => True) "function".toList :=
    isPath_function.nested fun _ _ => trivial
  have noGeneric : cutGeneric? ("function".toList ++ '(' :: (s ++ ')' :: after)) = none :=
    cutGeneric?_append_eq_none word rfl rfl (by decide)
  have signature := Signature.read?_function nested after
  rw [found, Option.map_some] at signature
  have form := Form.of_function (elementOf?_eq_none noBracket noGeneric) noGeneric signature
  have free := replacement?_wrapped names "function".toList s after ')' (o := '(') rfl
  rw [Config.translation_function bare free form]

/-- A function type is translated from its arguments and from the text behind its colon, whatever
that text spells. -/
theorem translation_call {arguments : List (TypeExpr.Argument DocType)} {pieces : List (List Char)}
    {after : List Char} {returns : Option (List Char)}
    (each : List.Forall₂ SpellsArgument arguments pieces) (listed : Listed pieces s)
    (found : readReturns? after = some returns)
    (bare : Text.trim ("function".toList ++ '(' :: (s ++ ')' :: after)) =
      "function".toList ++ '(' :: (s ++ ')' :: after))
    (noBracket : ("function".toList ++ '(' :: (s ++ ')' :: after)).getLast? ≠ some ']')
    (below : TranslatesBelow c ("function".toList ++ '(' :: (s ++ ')' :: after)).length) :
    c.translation ("function".toList ++ '(' :: (s ++ ')' :: after)) =
      "(" ++ Text.joinWith ", " (renderArguments c 0 false arguments) ++ ") => " ++
        (returns.map c.translation).getD c.defaultReturnType := by
  have reads : List.Forall₂ Reads arguments (pieces.map TypeExpr.Argument.read) := by
    rw [List.forall₂_map_right_iff]
    exact each.imp fun _ _ spelled => spelled.reads
  have types : ∀ entry ∈ pieces.map TypeExpr.Argument.read, ∀ u, SpellsMarked u entry.type →
      c.translation entry.type = u.render c := by
    intro entry mem u marked
    obtain ⟨piece, mem', rfl⟩ := List.mem_map.1 mem
    refine below u _ ?_ marked
    exact Nat.lt_of_le_of_lt (length_type_read_le piece)
      (listed.length_lt_wrapped "function".toList after '(' ')' piece mem')
  have nested := Item.nested_listed (items_of_arguments each) listed
  rw [translation_signature names nested found bare noBracket, readArguments_eq each listed,
    Signature.print, printArguments_eq reads types]

theorem translation_procedure {arguments : List (TypeExpr.Argument DocType)}
    {pieces : List (List Char)} (each : List.Forall₂ SpellsArgument arguments pieces)
    (listed : Listed pieces s)
    (below : TranslatesBelow c ("function".toList ++ '(' :: (s ++ [')'])).length) :
    c.translation ("function".toList ++ '(' :: (s ++ [')'])) =
      (DocType.function arguments none).render c := by
  have tight := (Spells.procedure each listed).regular.tight
  have found : readReturns? [] = some none := rfl
  have noBracket : ("function".toList ++ '(' :: (s ++ [')'])).getLast? ≠ some ']' := by
    rw [getLast?_wrapped]
    decide
  rw [translation_call names each listed found tight.trim_eq noBracket below, render, renderReturns]
  rfl

/-- All that stands behind the colon is the return type. -/
theorem translation_returns {arguments : List (TypeExpr.Argument DocType)}
    {pieces : List (List Char)} {r : List Char} (before after : Nat)
    (each : List.Forall₂ SpellsArgument arguments pieces) (listed : Listed pieces s)
    (returns : SpellsMarked t r) (noBracket : r.getLast? ≠ some ']')
    (below : TranslatesBelow c ("function".toList ++
      '(' :: (s ++ ')' :: (Text.pad before ++ ':' :: (Text.pad after ++ r)))).length) :
    c.translation ("function".toList ++
        '(' :: (s ++ ')' :: (Text.pad before ++ ':' :: (Text.pad after ++ r)))) =
      "(" ++ Text.joinWith ", " (renderArguments c 0 false arguments) ++ ") => " ++ t.render c := by
  obtain ⟨d, last, solid⟩ := returns.item.tight.last
  have lastWhole := getLast?_returns s before after returns.item.tight
  have tight : Text.Tight ("function".toList ++
      '(' :: (s ++ ')' :: (Text.pad before ++ ':' :: (Text.pad after ++ r)))) :=
    ⟨⟨'f', rfl, rfl⟩, ⟨d, lastWhole.trans last, solid⟩⟩
  have found := readReturns?_colon returns.item.tight before after
  have type : c.translation r = t.render c := by
    refine below t r ?_ returns
    simp only [List.length_append, List.length_cons]
    omega
  rw [translation_call names each listed found tight.trim_eq (by rwa [lastWhole]) below,
    Option.map_some, Option.getD_some, type]

/-! ### Unions -/

/-- A union that is not taken for a function type is split at its bars. -/
theorem translation_bars {members : List DocType} {isOptional : Bool}
    (spelled : Spells (.union members) s)
    (noFunction : Signature.read? (s ++ optionalMark isOptional) = none)
    (noBracket : (s ++ optionalMark isOptional).getLast? ≠ some ']')
    (below : TranslatesBelow c (s ++ optionalMark isOptional).length) :
    c.translation (s ++ optionalMark isOptional) = (DocType.union members).render c := by
  have tight := (SpellsMarked.mk spelled isOptional).item.tight
  obtain ⟨front, n, rest, layout, nested⟩ := spelled.exists_bar (optionalMark isOptional)
  have noGeneric : cutGeneric? (s ++ optionalMark isOptional) = none := by
    rw [layout]
    exact cutGeneric?_bar nested n rest
  have bar : '|' ∈ s ++ optionalMark isOptional := by
    rw [layout]
    simp
  cases spelled with
  | @union _ pieces _ several noUnion each joined =>
    obtain ⟨pieces', joined', each'⟩ := exists_marked_joined joined each isOptional
    have bars := splitOutside_bars each' noUnion joined'
    have several' : 2 ≤ pieces'.length := by
      rw [← each'.length_eq]
      exact several
    have unclaimed : Form.Unclaimed (s ++ optionalMark isOptional) :=
      ⟨elementOf?_eq_none noBracket noGeneric, noGeneric, noFunction,
        isArrayWord_eq_false bar rfl⟩
    have shorter := joined'.length_lt several'
    have long : 2 ≤ (s ++ optionalMark isOptional).length := by
      obtain ⟨piece, mem⟩ := List.exists_mem_of_ne_nil _ joined'.ne_nil
      obtain ⟨u, _, marked⟩ := exists_of_mem_forall₂ each' piece mem
      have positive := List.length_pos_iff.2 marked.item.tight.ne_nil
      have less := shorter piece mem
      omega
    have free : c.replacement? (String.ofList (s ++ optionalMark isOptional)) = none :=
      replacement?_eq_none names bar rfl long
    have parts := below.map each' shorter
    match pieces', several', bars, parts with
    | first :: second :: more, _, bars, parts =>
      rw [Config.translation_union tight.trim_eq free (unclaimed.of_union bars), parts, render]

theorem translation_union {members : List DocType} {isOptional : Bool}
    (spelled : Spells (.union members) s)
    (noBracket : (s ++ optionalMark isOptional).getLast? ≠ some ']')
    (below : TranslatesBelow c (s ++ optionalMark isOptional).length) :
    c.translation (s ++ optionalMark isOptional) = (DocType.union members).render c := by
  have marked := SpellsMarked.mk spelled isOptional
  have split := fun noFunction => translation_bars names spelled noFunction noBracket below
  cases spelled.unionCut with
  | @mk t ts piece rest pieces before after first noUnion others noUnions joined =>
    cases first with
    | @procedure arguments entries inside each listed =>
      -- A bar is no return type, so the text is a union and no function type.
      refine split ?_
      have solid : Text.Tight ('|' :: (Text.pad after ++ rest) ++ optionalMark isOptional) := by
        have tight := marked.item.tight
        rw [List.append_assoc] at tight
        exact tight.of_append rfl rfl
      have noReturns := readReturns?_eq_none solid (by decide) before
      have items := items_of_arguments each
      rw [call_append, call_append, call_append, List.nil_append, List.append_assoc,
        Signature.read?_function (Item.nested_listed items listed)]
      exact congrArg _ noReturns
    | @function arguments entries inside u r before' after' each listed noUnion' returns =>
      -- The members from the second on go into the return type.
      have cut := UnionCut.mk before after returns noUnion' others noUnions joined
      have swallowed := SpellsMarked.mk cut.spells isOptional
      rw [returns_append, returns_append, returns_append] at noBracket below ⊢
      rw [getLast?_returns inside before' after' swallowed.item.tight] at noBracket
      rw [translation_returns names before' after' each listed swallowed noBracket below, render,
        render, renderAll, renderAll, render, renderReturns, Text.joinWith_append_head]
    | _ => exact split (marked.read?_eq_none rfl)

/-! ### Brackets and marks around the whole -/

theorem translation_group (spelled : Spells t s)
    (below : TranslatesBelow c ('(' :: (s ++ [')'])).length) :
    c.translation ('(' :: (s ++ [')'])) = t.group.render c := by
  have whole := Spells.group spelled
  have last : ('(' :: (s ++ [')'])).getLast? = some ')' := getLast?_wrapped [] s '(' ')'
  have unclaimed := whole.unmarked.unclaimed_cons rfl rfl (by decide)
    (by rw [last]; decide)
  have form := unclaimed.of_group (whole.unmarked.splitOutside_bar rfl)
    (insideBrackets?_wrapped spelled.regular.nested rfl rfl (by decide))
  have free := replacement?_wrapped names [] s [] ')' (o := '(') rfl
  rw [Config.translation_group whole.regular.tight.trim_eq free form, render,
    below t s (length_lt_wrapped [] s [] _ _) spelled.unmarked]

theorem translation_record {fields : List (List Char × DocType)} {pieces : List (List Char)}
    (each : List.Forall₂ SpellsField fields pieces) (joined : Joined ',' pieces s)
    (below : TranslatesBelow c ('\x7b' :: (s ++ ['\x7d'])).length) :
    c.translation ('\x7b' :: (s ++ ['\x7d'])) = (DocType.record fields).render c := by
  have whole := Spells.record each joined
  have last : ('\x7b' :: (s ++ ['\x7d'])).getLast? = some '\x7d' :=
    getLast?_wrapped [] s '\x7b' '\x7d'
  have unclaimed := whole.unmarked.unclaimed_cons rfl rfl (by decide)
    (by rw [last]; decide)
  have items := items_of_fields each
  have form := unclaimed.of_record (whole.unmarked.splitOutside_bar rfl)
    (insideBrackets?_eq_none_of_head (by decide))
    (insideBrackets?_wrapped (Item.nested_joined items joined) rfl rfl (by decide))
  rw [Item.splitOutside_joined items joined] at form
  have free := replacement?_wrapped names [] s [] '\x7d' (o := '\x7b') rfl
  have texts := texts_eq_renderFields each below
    (joined.length_lt_wrapped [] [] '\x7b' '\x7d')
  cases pieces with
  | nil => exact absurd rfl joined.ne_nil
  | cons piece pieces =>
    rw [List.map_cons] at form texts
    rw [Config.translation_record whole.regular.tight.trim_eq free form, texts, render]

/-- A mark in front of a type, perhaps with an equals sign at the end, leaves no trace. -/
theorem translation_mark {u : DocType} {mark : Char} (marked : SpellsMarked t s)
    (whole : SpellsMarked u (mark :: s)) (noUnion : u.isUnion = false)
    (noCall : u.startsWithCall = false) (base : isBaseChar mark = false) (angle : mark ≠ '<')
    (group : mark ≠ '(') (record : mark ≠ '\x7b')
    (found : withoutMark? (mark :: s) = some s) (noBracket : (mark :: s).getLast? ≠ some ']')
    (below : TranslatesBelow c (mark :: s).length) : c.translation (mark :: s) = t.render c := by
  have unclaimed := whole.unclaimed_cons noCall base angle noBracket
  have form := unclaimed.of_marked (whole.splitOutside_bar noUnion)
    (insideBrackets?_eq_none_of_head group) (insideBrackets?_eq_none_of_head record) found
  have long := Text.two_le_length_cons marked.item.tight.ne_nil mark
  have free : c.replacement? (String.ofList (mark :: s)) = none :=
    replacement?_eq_none names List.mem_cons_self (isPathChar_eq_false base) long
  rw [Config.translation_marked whole.item.tight.trim_eq free form,
    below t s (Nat.lt_succ_self _) marked]

/-- An equals sign behind a type that has no other mark leaves no trace. -/
theorem translation_equals (spelled : Spells t s) (noUnion : t.isUnion = false)
    (noOptional : t.isOptional = false) (noRequired : t.isRequired = false)
    (noFunction : Signature.read? (s ++ ['=']) = none)
    (below : TranslatesBelow c (s ++ ['=']).length) : c.translation (s ++ ['=']) = t.render c := by
  have regular := spelled.regular
  have whole : SpellsMarked t (s ++ ['=']) := .mk spelled true
  have last : ∀ {d : Char}, d ≠ '=' → (s ++ ['=']).getLast? ≠ some d := by
    intro d other
    rw [List.getLast?_concat]
    rintro same
    cases same
    exact other rfl
  have noMark : s.head? ≠ some '?' := by
    rw [Ne, spelled.head?_eq_optional_iff noUnion, noOptional]
    exact Bool.false_ne_true
  have noGeneric : cutGeneric? (s ++ ['=']) = none :=
    cutGeneric?_append_eq_none regular.nested rfl rfl (by decide)
  have unclaimed : Form.Unclaimed (s ++ ['=']) :=
    ⟨elementOf?_eq_none (last (by decide)) noGeneric, noGeneric, noFunction,
      isArrayWord_eq_false (c := '=') (by simp) rfl⟩
  have form := unclaimed.of_marked (whole.splitOutside_bar noUnion)
    (insideBrackets?_eq_none_of_last (last (by decide)))
    (insideBrackets?_eq_none_of_last (last (by decide)))
    (withoutMark?_equals regular.tight noMark (spelled.head?_ne_required noUnion noRequired))
  have long := Text.two_le_length_concat regular.tight.ne_nil '='
  have free : c.replacement? (String.ofList (s ++ ['='])) = none :=
    replacement?_eq_none names (d := '=') (by simp) rfl long
  rw [Config.translation_marked whole.item.tight.trim_eq free form,
    below t s (by simp) spelled.unmarked]

/-- An equals sign makes no difference to a type that is not marked otherwise. -/
theorem translation_marked (spelled : Spells t s) {isOptional : Bool} (noUnion : t.isUnion = false)
    (noOptional : t.isOptional = false) (noRequired : t.isRequired = false)
    (noFunction : Signature.read? (s ++ ['=']) = none)
    (below : TranslatesBelow c (s ++ optionalMark isOptional).length)
    (direct : TranslatesBelow c s.length → c.translation s = t.render c) :
    c.translation (s ++ optionalMark isOptional) = t.render c := by
  cases isOptional with
  | false =>
    rw [show optionalMark false = [] from rfl, List.append_nil] at below ⊢
    exact direct below
  | true => exact translation_equals names spelled noUnion noOptional noRequired noFunction below

/-- **One step of the induction**: a marked spelling is translated to the rendering of its tree if all
shorter ones are. -/
theorem translation_step (marked : SpellsMarked t s) (below : TranslatesBelow c s.length) :
    c.translation s = t.render c := by
  cases marked with
  | @mk s spelled isOptional =>
    have marked := SpellsMarked.mk spelled true
    -- `[]` at the end is looked for first, whatever the tree is.
    by_cases last : (s ++ optionalMark isOptional).getLast? = some ']'
    · cases isOptional with
      | false =>
        rw [show optionalMark false = [] from rfl, List.append_nil] at last below ⊢
        exact translation_brackets names spelled last below
      | true =>
        rw [show optionalMark true = ['='] from rfl, List.getLast?_concat] at last
        cases last
    · cases spelled with
      | name isName =>
        have spelled := Spells.name isName
        refine translation_marked names spelled rfl rfl rfl (marked.read?_eq_none rfl) below ?_
        intro below
        rw [translation_name isName, render]
      | anything =>
        refine translation_marked names .anything rfl rfl rfl (marked.read?_eq_none rfl) below ?_
        intro below
        rw [translation_anything, render]
      | array dotted element =>
        exact translation_marked names (.array dotted element) rfl rfl rfl
          (marked.read?_eq_none rfl) below (translation_array names element)
      | list fits element =>
        refine translation_marked names (.list fits element) rfl rfl rfl
          (marked.read?_eq_none rfl) below ?_
        exact translation_brackets names (.list fits element) (by simp)
      | dictionary dotted spelledKey spelledValue joined =>
        exact translation_marked names (.dictionary dotted spelledKey spelledValue joined)
          rfl rfl rfl (marked.read?_eq_none rfl) below
          (translation_dictionary names spelledKey spelledValue joined)
      | generic dotted isName noObject each joined =>
        exact translation_marked names (.generic dotted isName noObject each joined)
          rfl rfl rfl (marked.read?_eq_none rfl) below
          (translation_generic names isName noObject each joined)
      | procedure each listed =>
        exact translation_marked names (.procedure each listed) rfl rfl rfl
          (read?_procedure_equals each listed) below (translation_procedure names each listed)
      | @function arguments pieces s u r before after each listed noUnion returns =>
        have marked := SpellsMarked.mk returns isOptional
        rw [returns_append] at last below ⊢
        rw [getLast?_returns s before after marked.item.tight] at last
        rw [translation_returns names before after each listed marked last below, render,
          renderReturns]
      | union several noUnion each joined =>
        exact translation_union names (.union several noUnion each joined) last below
      | group inner =>
        exact translation_marked names (.group inner) rfl rfl rfl (marked.read?_eq_none rfl) below
          (translation_group names inner)
      | record each joined =>
        exact translation_marked names (.record each joined) rfl rfl rfl (marked.read?_eq_none rfl)
          below (translation_record names each joined)
      | @optional u r noUnion inner =>
        have marked := SpellsMarked.mk inner isOptional
        rw [render]
        exact translation_mark names marked (.mk (.optional noUnion inner) isOptional) rfl rfl
          rfl (by decide) (by decide) (by decide)
          (withoutMark?_optional marked.item.tight.ne_nil) last below
      | @required u r noUnion inner =>
        have marked := SpellsMarked.mk inner isOptional
        rw [render]
        exact translation_mark names marked (.mk (.required noUnion inner) isOptional) rfl rfl
          rfl (by decide) (by decide) (by decide)
          (withoutMark?_required marked.item.tight.ne_nil) last below

/-- Every marked spelling is translated to the rendering of its tree. -/
theorem translation_eq_render (marked : SpellsMarked t s) : c.translation s = t.render c := by
  induction length : s.length using Nat.strongRecOn generalizing t s with
  | ind n ih =>
    subst length
    exact translation_step names marked fun u r shorter inner => ih r.length shorter inner rfl

end Compound

end Ambient.DocType

namespace Ambient.Config

open TypeExpr DocType

/-- **The translator is compositional.** Every spelling of a documented type is translated to the
rendering of its tree, whatever the names in it are replaced by. -/
theorem typeText_eq_render (c : Config) (names : ∀ key ∈ c.typeReplacements.keys, IsPath key.toList)
    {t : DocType} {s : List Char} (spelled : t.Spells s) :
    (c.typeText (String.ofList s)).text = t.render c := by
  rw [text_typeText, String.toList_ofList]
  exact DocType.translation_eq_render names spelled.unmarked

/-- A union whose first member is a callback, with marks, spaces and a replaced name. -/
theorem typeText_eq_render_callback :
    (({ typeReplacements := .ofList [("a.B", "B")] } : Config).typeText
      "function(?Map.<K, a.B>, ...N=): T[] | U").text =
        "(arg0?: Map<K, B>, ...arg1: N[]) => T[]|U" := by
  have names : ∀ key ∈ (OrderedMap.ofList [("a.B", "B")]).keys, IsPath key.toList := by
    intro key mem
    rw [List.mem_singleton.1 mem]
    exact @IsPath.joined ['a'] ['B'] '.' ⟨by decide, by decide⟩ rfl
      (.single ⟨by decide, by decide⟩)
  have letter : ∀ c, IsAsciiIdentifier [c] → IsName [c] := by
    intro c identifier
    refine ⟨.single identifier, fun same => ?_⟩
    cases congrArg List.length same
  have path : IsName "a.B".toList := ⟨names "a.B" List.mem_cons_self, by decide⟩
  have map : IsName "Map".toList := ⟨.single ⟨by decide, by decide⟩, by decide⟩
  have first := Spells.optional rfl (.generic true map (by decide)
    (.cons (.name (letter 'K' ⟨by decide, by decide⟩)) (.cons (.name path) .nil))
    (.cons ['K'] 0 1 (.single "a.B".toList)))
  have arguments : List.Forall₂ SpellsArgument
      [⟨.optional (.generic "Map".toList [.name ['K'], .name "a.B".toList]), false, false⟩,
        ⟨.name ['N'], true, true⟩] ["?Map.<K, a.B>".toList, "...N=".toList] :=
    .cons (@SpellsArgument.mk ⟨_, false, false⟩ _ first)
      (.cons (@SpellsArgument.mk ⟨_, true, true⟩ _ (.name (letter 'N' ⟨by decide, by decide⟩))) .nil)
  have call := Spells.function 0 1 arguments
    (.joined (.cons "?Map.<K, a.B>".toList 0 1 (.single "...N=".toList))) rfl
    (.list rfl (.name (letter 'T' ⟨by decide, by decide⟩)))
  have last : Spells (.name ['U']) ['U'] := .name (letter 'U' ⟨by decide, by decide⟩)
  have union := Spells.union (by decide) (by decide) (.cons call (.cons last .nil))
    (.cons _ 1 1 (.single ['U']))
  have translated := typeText_eq_render { typeReplacements := .ofList [("a.B", "B")] } names union
  exact translated.trans rfl

end Ambient.Config
