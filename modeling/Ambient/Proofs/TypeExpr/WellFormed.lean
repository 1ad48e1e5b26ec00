import Ambient.Proofs.TypeExpr.Compositional
import Ambient.Proofs.TypeExpr.Phrases
import Ambient.Proofs.TypeExpr.TypeScript
/-!
# Well-formed types

Phrases are translated to TypeScript types. Each pattern pastes the types of the parts into a larger
text, and the base of a generic application is translated like any other part. That may give the type
of an untyped array, which is no base, and `Array` with several arguments is an array of the text in
its brackets, which is no type. All other generic applications are printed well.

## Main definitions

* `TypeExpr.IsTyped`: the generic applications that are printed well.

## Main statements

* `TypeExpr.isTypeScript_step`: a phrase is translated to a type if all shorter ones are.
* `Config.isTypeScript_typeText`: phrases are translated to types.
* `Config.not_isTypeScript_typeText`: what becomes of the other generic applications.
-/

namespace Ambient.TypeExpr

open DocType

/-- A generic application of `Array` has one argument, and no other spelling of that word is a base. -/
def IsTyped (base : List Char) (n : Nat) : Prop :=
  Form.isArrayWord base = true → base = "Array".toList ∧ n = 1

variable {c : Config} {s : List Char}

/-- Phrases below a length are translated to types. -/
def PrintsBelow (c : Config) (n : Nat) : Prop :=
  ∀ r, r.length < n → IsMarkedPhrase IsTyped r → IsTypeScript (c.translation r)

section Unconfigured

variable (noKeys : c.typeReplacements.keys = [])

include noKeys

/-! ## Names -/

theorem names_of_noKeys : ∀ key ∈ c.typeReplacements.keys, IsPath key.toList := by
  rw [noKeys]
  exact fun key mem => absurd mem List.not_mem_nil

/-- Only the built-in replacements are left, and they are names. -/
theorem replacement?_of_noKeys {name text : String} (found : c.replacement? name = some text) :
    name ∈ Config.builtinReplacements.map Prod.fst ∧ IsPath text.toList := by
  have configured : c.typeReplacements.get? name = none := by
    rw [OrderedMap.get?_eq_none_iff, noKeys]
    exact List.not_mem_nil
  unfold Config.replacement? at found
  rw [configured] at found
  obtain ⟨before, after, entries, -⟩ := List.lookup_eq_some_iff.1 found
  have mem : (name, text) ∈ Config.builtinReplacements := by simp [entries]
  refine ⟨List.mem_map.2 ⟨_, mem, rfl⟩, ?_⟩
  have texts : text = "any" ∨ text = "Function" := by
    simp only [Config.builtinReplacements, List.mem_cons, Prod.mk.injEq, List.not_mem_nil, or_false]
      at mem
    rcases mem with ⟨-, same⟩ | ⟨-, same⟩ | ⟨-, same⟩ | ⟨-, same⟩
    · exact .inl same
    · exact .inl same
    · exact .inl same
    · exact .inr same
  rcases texts with rfl | rfl
  · exact isPath_any
  · exact .single ⟨by decide, by decide⟩

theorem isPath_nameText (path : IsPath s) : IsPath (nameText c s).toList := by
  unfold nameText
  cases found : c.replacement? (String.ofList s) with
  | some text => exact (replacement?_of_noKeys noKeys found).2
  | none => rwa [Option.getD_none, String.toList_ofList]

/-- The bare word `array` is printed as an array of anything. -/
theorem translation_arrayWord (path : IsPath s) (word : Form.isArrayWord s = true) :
    c.translation s = "any[]" := by
  have free : c.replacement? (String.ofList s) = none := by
    cases found : c.replacement? (String.ofList s) with
    | none => rfl
    | some text =>
      have others : ∀ key ∈ Config.builtinReplacements.map Prod.fst,
          Form.isArrayWord key.toList = false := by decide
      have other := others _ (replacement?_of_noKeys noKeys found).1
      rw [String.toList_ofList, word] at other
      cases other
  have noGeneric := cutGeneric?_eq_none_of_not_mem (path.not_mem (c := '<') rfl)
  have noBracket : s.getLast? ≠ some ']' := fun last =>
    path.not_mem rfl (List.mem_of_getLast? last)
  have noFunction : Signature.read? s = none := by
    have member : IsMember IsTyped s := .name path
    refine member.marked.phrase.isCall_or.resolve_left fun call => path.not_mem (c := '(') rfl ?_
    cases call <;> simp
  exact Config.translation_untypedArray path.tight.trim_eq free
    (Form.of_untypedArray (elementOf?_eq_none noBracket noGeneric) noGeneric noFunction word)

/-- Names are translated to types. -/
theorem isTypeScript_name (path : IsPath s) : IsTypeScript (c.translation s) := by
  by_cases word : Form.isArrayWord s = true
  · rw [translation_arrayWord noKeys path word]
    exact IsTypeScript.array (s := "any") (.name isPath_any)
  · have isName : IsName s := ⟨path, fun same => word (beq_iff_eq.2 same)⟩
    rw [translation_name isName]
    exact .name (isPath_nameText noKeys path)

/-! ## Generic applications -/

/-- A generic application is translated to a type. -/
theorem isTypeScript_generic {base : List Char} {pieces : List (List Char)} (dotted : Bool)
    (path : IsPath base) (typed : IsTyped base pieces.length) (joined : Joined ',' pieces s)
    (each : ∀ piece ∈ pieces, IsPhrase IsTyped piece)
    (below : PrintsBelow c (base ++ dot dotted ++ '<' :: (s ++ ['>'])).length) :
    IsTypeScript (c.translation (base ++ dot dotted ++ '<' :: (s ++ ['>']))) := by
  have tight := (IsMember.generic dotted path typed joined each).regular.tight.trim_eq
  have free := replacement?_wrapped (names_of_noKeys noKeys) (base ++ dot dotted) s [] '>' (o := '<')
    rfl
  have regular : ∀ piece ∈ pieces, ∃ t, Regular t piece :=
    fun piece mem => ⟨.union [], (each piece mem).regular⟩
  have balanced := (Item.nested_joined (Regular.items regular) joined).isBalanced
  have noArrow := Regular.getLast?_joined_ne regular joined
  have generic := cutGeneric?_path path (dot_cases dotted) balanced noArrow
  have element := elementOf?_path path (dot_cases dotted) balanced noArrow
  have split := Item.splitOutside_joined (Regular.items regular) joined
  have types : ∀ piece ∈ pieces, IsTypeScript (c.translation piece) := fun piece mem =>
    below piece (joined.length_lt_wrapped _ [] '<' '>' piece mem) (each piece mem).unmarked
  by_cases array : base = "Array".toList
  · -- The one argument is the element type.
    rw [if_pos array] at element
    have one : pieces.length = 1 := (typed (by rw [array]; decide)).2
    rw [Config.translation_array tight free (Form.of_array element)]
    cases joined with
    | single => exact .array (types s List.mem_cons_self)
    | cons piece before after tail =>
      have filled := List.length_pos_iff.2 tail.ne_nil
      rw [List.length_cons] at one
      omega
  · rw [if_neg array] at element
    by_cases dictionary : base = "Object".toList ∧ pieces.length = 2
    · obtain ⟨rfl, two⟩ := dictionary
      obtain ⟨key, value, rfl⟩ := List.length_eq_two.1 two
      rw [Config.translation_dictionary tight free (Form.of_dictionary element generic split)]
      rw [List.forall_mem_cons, List.forall_mem_singleton] at types
      exact .dictionary types.1 types.2
    · have form := Form.of_generic_of_length element generic fun same two => by
        rw [split] at two
        exact dictionary ⟨same, two⟩
      rw [split] at form
      have isName : IsName base := ⟨path, fun word => array (typed (beq_iff_eq.2 word)).1⟩
      rw [Config.translation_generic tight free form, translation_name isName]
      refine .generic (isPath_nameText noKeys path) ?_ fun text mem => ?_
      · rw [Ne, List.map_eq_nil_iff]
        exact joined.ne_nil
      · obtain ⟨piece, inside, rfl⟩ := List.mem_map.1 mem
        exact types piece inside

/-! ## Brackets and marks around the whole -/

omit noKeys in
/-- A phrase that starts with a mark or a bracket is taken by none of the first patterns. -/
theorem IsMarkedPhrase.unclaimed_cons {mark : Char} (h : IsMarkedPhrase IsTyped (mark :: s))
    (base : isBaseChar mark = false) (angle : mark ≠ '<') : Form.Unclaimed (mark :: s) := by
  have noGeneric : cutGeneric? (mark :: s) = none :=
    cutGeneric?_append_eq_none (Nested.nil : Nested (fun _ => True) []) rfl base angle
  have noFunction : Signature.read? (mark :: s) = none := by
    refine h.isCall_or.resolve_left fun call => ?_
    have first : (mark :: s).head? = some 'f' := by cases call <;> rfl
    cases first
    cases base
  exact ⟨elementOf?_eq_none h.getLast?_ne noGeneric, noGeneric, noFunction,
    isArrayWord_eq_false List.mem_cons_self (isPathChar_eq_false base)⟩

theorem isTypeScript_group (inner : IsPhrase IsTyped s)
    (below : PrintsBelow c ('(' :: (s ++ [')'])).length) :
    IsTypeScript (c.translation ('(' :: (s ++ [')']))) := by
  have marked := (IsMember.group inner).marked
  have unclaimed := marked.phrase.unclaimed_cons rfl (by decide)
  have form := unclaimed.of_group marked.splitOutside_eq
    (insideBrackets?_wrapped inner.regular.nested rfl rfl (by decide))
  have free := replacement?_wrapped (names_of_noKeys noKeys) [] s [] ')' (o := '(') rfl
  rw [Config.translation_group marked.item.tight.trim_eq free form]
  exact .group (below s (length_lt_wrapped [] s [] _ _) inner.unmarked)

omit noKeys in
/-- The entries of a record are printed with their types, or as anything. -/
theorem exists_fields {n : Nat} {pieces : List (List Char)} (below : PrintsBelow c n)
    (each : ∀ piece ∈ pieces, IsEntry IsTyped piece) (shorter : ∀ piece ∈ pieces, piece.length < n) :
    ∃ fields : List (String × String),
      (pieces.map Field.read).map (fun field => (field.map c.translation).text) =
        fields.map (fun field => field.1 ++ ": " ++ field.2 ++ ";") ∧
      ∀ field ∈ fields, IsAsciiIdentifier field.1.toList ∧ IsTypeScript field.2 := by
  induction pieces with
  | nil => exact ⟨[], rfl, fun field mem => absurd mem List.not_mem_nil⟩
  | cons piece pieces ih =>
    rw [List.forall_mem_cons] at each shorter
    obtain ⟨fields, printed, sound⟩ := ih each.2 shorter.2
    rw [List.map_cons, List.map_cons, printed]
    cases each.1 with
    | bare identifier =>
      refine ⟨(String.ofList piece, "any") :: fields, ?_, List.forall_mem_cons.2 ⟨⟨?_, ?_⟩, sound⟩⟩
      · rw [Field.read_bare identifier, List.map_cons]
        have colon : ": any;" = ": " ++ "any" ++ ";" := rfl
        simp only [Field.map, Field.text, colon, String.append_assoc]
      · rwa [String.toList_ofList]
      · exact .name isPath_any
    | @typed key r before after identifier type =>
      refine ⟨(String.ofList key, c.translation r) :: fields, ?_,
        List.forall_mem_cons.2 ⟨⟨?_, ?_⟩, sound⟩⟩
      · have regular := type.regular
        rw [Field.read_keyed identifier regular.tight regular.oneLine]
        rfl
      · rwa [String.toList_ofList]
      · refine below r (Nat.lt_of_le_of_lt ?_ shorter.1) type.unmarked
        simp only [List.length_append, List.length_cons]
        omega

theorem isTypeScript_record {pieces : List (List Char)} (listed : Listed pieces s)
    (each : ∀ piece ∈ pieces, IsEntry IsTyped piece)
    (below : PrintsBelow c ('\x7b' :: (s ++ ['\x7d'])).length) :
    IsTypeScript (c.translation ('\x7b' :: (s ++ ['\x7d']))) := by
  have marked := (IsMember.record listed each).marked
  have unclaimed := marked.phrase.unclaimed_cons rfl (by decide)
  have items : ∀ piece ∈ pieces, Item piece := fun piece mem => (each piece mem).item
  have form := unclaimed.of_record marked.splitOutside_eq
    (insideBrackets?_eq_none_of_head (by decide))
    (insideBrackets?_wrapped (Item.nested_listed items listed) rfl rfl (by decide))
  rw [Item.splitOutside_listed items listed] at form
  have free := replacement?_wrapped (names_of_noKeys noKeys) [] s [] '\x7d' (o := '\x7b') rfl
  have tight := marked.item.tight.trim_eq
  obtain ⟨fields, printed, sound⟩ := exists_fields below each
    (listed.length_lt_wrapped [] [] '\x7b' '\x7d')
  cases pieces with
  | nil =>
    rw [Config.translation_record_nil tight free form]
    exact .empty
  | cons piece pieces =>
    rw [List.map_cons] at form printed
    rw [Config.translation_record tight free form, printed]
    refine .record ?_ (fun field mem => (sound field mem).1) fun field mem => (sound field mem).2
    rintro rfl
    cases printed

/-- A mark in front of a member leaves no trace. -/
theorem translation_mark_member {mark : Char} (isMark : mark = '?' ∨ mark = '!')
    (member : IsMember IsTyped s) (isOptional : Bool) :
    c.translation (mark :: (s ++ optionalMark isOptional)) =
      c.translation (s ++ optionalMark isOptional) := by
  have inner := IsMarked.mk member isOptional
  have marked : IsMarked IsTyped (mark :: (s ++ optionalMark isOptional)) := by
    rcases isMark with rfl | rfl
    · exact .mk member.optional isOptional
    · exact .mk member.required isOptional
  have apart : isBaseChar mark = false ∧ mark ≠ '<' ∧ mark ≠ '(' ∧ mark ≠ '\x7b' := by
    rcases isMark with rfl | rfl <;> decide
  have found : withoutMark? (mark :: (s ++ optionalMark isOptional)) =
      some (s ++ optionalMark isOptional) := by
    rcases isMark with rfl | rfl
    · exact withoutMark?_optional inner.item.tight.ne_nil
    · exact withoutMark?_required inner.item.tight.ne_nil
  have unclaimed := marked.phrase.unclaimed_cons apart.1 apart.2.1
  have form := unclaimed.of_marked marked.splitOutside_eq
    (insideBrackets?_eq_none_of_head apart.2.2.1) (insideBrackets?_eq_none_of_head apart.2.2.2) found
  have long := Text.two_le_length_cons inner.item.tight.ne_nil mark
  have free := replacement?_eq_none (names_of_noKeys noKeys) List.mem_cons_self
    (isPathChar_eq_false apart.1) long
  exact Config.translation_marked marked.item.tight.trim_eq free form

/-- An equals sign behind a member without a mark in front leaves no trace. -/
theorem translation_equals_member (member : IsMember IsTyped s) (noOptional : s.head? ≠ some '?')
    (noRequired : s.head? ≠ some '!') (noFunction : Signature.read? (s ++ ['=']) = none) :
    c.translation (s ++ ['=']) = c.translation s := by
  have regular := member.regular
  have marked := IsMarked.mk member true
  have last : ∀ {d : Char}, d ≠ '=' → (s ++ ['=']).getLast? ≠ some d := by
    intro d other
    rw [List.getLast?_concat]
    rintro same
    cases same
    exact other rfl
  have noGeneric : cutGeneric? (s ++ ['=']) = none :=
    cutGeneric?_append_eq_none regular.nested rfl rfl (by decide)
  have unclaimed : Form.Unclaimed (s ++ ['=']) :=
    ⟨elementOf?_eq_none (last (by decide)) noGeneric, noGeneric, noFunction,
      isArrayWord_eq_false (c := '=') (by simp) rfl⟩
  have form := unclaimed.of_marked marked.splitOutside_eq
    (insideBrackets?_eq_none_of_last (last (by decide)))
    (insideBrackets?_eq_none_of_last (last (by decide)))
    (withoutMark?_equals regular.tight noOptional noRequired)
  have long := Text.two_le_length_concat regular.tight.ne_nil '='
  have free : c.replacement? (String.ofList (s ++ ['='])) = none :=
    replacement?_eq_none (names_of_noKeys noKeys) (d := '=') (by simp) rfl long
  exact Config.translation_marked marked.item.tight.trim_eq free form

/-! ## Function types and unions -/

/-- A function type is translated to a type if the default return type is a name. -/
theorem isTypeScript_call (returns : IsPath c.defaultReturnType.toList)
    (phrase : IsMarkedPhrase IsTyped s) (call : IsCall IsTyped s) (below : PrintsBelow c s.length) :
    IsTypeScript (c.translation s) := by
  have bare := phrase.item.tight.trim_eq
  have noBracket := phrase.getLast?_ne
  -- The arguments are phrases, whatever stands behind them.
  have types : ∀ {pieces : List (List Char)} {inner tail : List Char}, Listed pieces inner →
      (∀ piece ∈ pieces, IsArgument IsTyped piece) →
      s = "function".toList ++ '(' :: (inner ++ ')' :: tail) →
      ∀ argument ∈ (readArguments inner).map (Argument.map c.translation),
        IsTypeScript argument.type := by
    rintro pieces inner tail listed each rfl argument mem
    rw [readArguments_listed listed each, List.map_map, List.mem_map] at mem
    obtain ⟨piece, inside, rfl⟩ := mem
    refine below _ (Nat.lt_of_le_of_lt (length_type_read_le piece) ?_) (each piece inside).type_read
    exact listed.length_lt_wrapped _ tail '(' ')' piece inside
  cases call with
  | @bare pieces inner listed each =>
    have nested := Item.nested_listed (fun piece mem => (each piece mem).item) listed
    have found : readReturns? [] = some none := rfl
    rw [translation_signature (names_of_noKeys noKeys) nested found bare noBracket]
    exact .signature (types listed each rfl) (.name returns)
  | @returns pieces inner r before after listed each type =>
    have nested := Item.nested_listed (fun piece mem => (each piece mem).item) listed
    rw [translation_signature (names_of_noKeys noKeys) nested
      (readReturns?_colon type.item.tight before after) bare noBracket]
    refine .signature (types listed each rfl) (below r ?_ type)
    simp only [List.length_append, List.length_cons]
    omega

/-- A union that is not taken for a function type is translated member by member. -/
theorem isTypeScript_union {pieces : List (List Char)} (several : 2 ≤ pieces.length)
    (joined : Joined '|' pieces s) (each : ∀ piece ∈ pieces, IsMarked IsTyped piece)
    (noFunction : Signature.read? s = none) (below : PrintsBelow c s.length) :
    IsTypeScript (c.translation s) := by
  have phrase := IsMarkedPhrase.mk joined each
  have split : splitOutside '|' s = pieces :=
    joined.splitOutside_eq (fun piece mem => (each piece mem).nested)
      (fun piece mem => (each piece mem).item.tight) rfl rfl (by decide)
  have shorter := joined.length_lt several
  have types : ∀ text ∈ pieces.map c.translation, IsTypeScript text := by
    intro text mem
    obtain ⟨piece, inside, rfl⟩ := List.mem_map.1 mem
    exact below piece (shorter piece inside) (each piece inside).phrase
  cases joined with
  | single piece => simp at several
  | @cons piece before after others rest tail =>
    have layout : piece ++ Text.pad before ++ '|' :: (Text.pad after ++ rest) =
        piece ++ (Text.pad before ++ '|' :: (Text.pad after ++ rest)) := List.append_assoc _ _ _
    have nested := (each piece List.mem_cons_self).item.nested
    have bar : '|' ∈ piece ++ Text.pad before ++ '|' :: (Text.pad after ++ rest) := by simp
    rw [layout] at phrase split noFunction bar shorter ⊢
    have noGeneric := cutGeneric?_bar nested before (Text.pad after ++ rest)
    have unclaimed : Form.Unclaimed (piece ++ (Text.pad before ++ '|' :: (Text.pad after ++ rest))) :=
      ⟨elementOf?_eq_none phrase.getLast?_ne noGeneric, noGeneric, noFunction,
        isArrayWord_eq_false bar rfl⟩
    have long := Nat.lt_of_le_of_lt
      (List.length_pos_iff.2 (each piece List.mem_cons_self).item.tight.ne_nil)
      (shorter piece List.mem_cons_self)
    have free := replacement?_eq_none (names_of_noKeys noKeys) bar rfl long
    cases others with
    | nil => simp at several
    | cons second more =>
      rw [Config.translation_union phrase.item.tight.trim_eq free (unclaimed.of_union split)]
      exact .joinWith (List.cons_ne_nil _ _) types

/-- A member that is not read as a function type is translated to a type. -/
theorem isTypeScript_member (member : IsMember IsTyped s) (noFunction : Signature.read? s = none)
    (noOptional : s.head? ≠ some '?') (noRequired : s.head? ≠ some '!')
    (below : PrintsBelow c s.length) : IsTypeScript (c.translation s) := by
  cases member with
  | name path => exact isTypeScript_name noKeys path
  | anything =>
    have configured : c.typeReplacements.get? (String.ofList ['*']) = none := by
      rw [OrderedMap.get?_eq_none_iff, noKeys]
      exact List.not_mem_nil
    have any : nameText c ['*'] = "any" := by
      unfold nameText Config.replacement?
      rw [configured]
      rfl
    rw [translation_anything, any]
    exact .name isPath_any
  | generic dotted path typed joined each =>
    exact isTypeScript_generic noKeys dotted path typed joined each below
  | call listed each =>
    rw [Signature.read?_function
      (Item.nested_listed (fun piece mem => (each piece mem).item) listed) []] at noFunction
    cases noFunction
  | callReturns before after listed each returns =>
    rw [Signature.read?_function
      (Item.nested_listed (fun piece mem => (each piece mem).item) listed),
      readReturns?_colon returns.regular.tight before after] at noFunction
    cases noFunction
  | group inner => exact isTypeScript_group noKeys inner below
  | record listed each => exact isTypeScript_record noKeys listed each below
  | optional inner => exact absurd rfl noOptional
  | required inner => exact absurd rfl noRequired

/-- **One step of the induction**: a phrase is translated to a type if all shorter ones are. -/
theorem isTypeScript_step (returns : IsPath c.defaultReturnType.toList)
    (phrase : IsMarkedPhrase IsTyped s) (below : PrintsBelow c s.length) :
    IsTypeScript (c.translation s) := by
  rcases phrase.isCall_or with call | noFunction
  · exact isTypeScript_call noKeys returns phrase call below
  · cases phrase with
    | mk joined each =>
      cases joined with
      | cons piece before after tail =>
        refine isTypeScript_union noKeys ?_ (.cons piece before after tail) each noFunction below
        have filled := List.length_pos_iff.2 tail.ne_nil
        rw [List.length_cons]
        omega
      | single =>
        cases each s List.mem_cons_self with
        | @mk s member isOptional =>
          by_cases mark : s.head? = some '?' ∨ s.head? = some '!'
          · -- What stands behind the mark is shorter.
            obtain ⟨char, isMark, first⟩ : ∃ c, (c = '?' ∨ c = '!') ∧ s.head? = some c := by
              rcases mark with first | first
              · exact ⟨'?', .inl rfl, first⟩
              · exact ⟨'!', .inr rfl, first⟩
            obtain ⟨r, rfl, inner⟩ := member.exists_unmarked isMark first
            show IsTypeScript (c.translation (char :: (r ++ optionalMark isOptional)))
            rw [translation_mark_member noKeys isMark inner isOptional]
            exact below _ (Nat.lt_succ_self _) (IsMarked.mk inner isOptional).phrase
          · rw [not_or] at mark
            cases isOptional with
            | false =>
              rw [show optionalMark false = [] from rfl, List.append_nil] at noFunction below ⊢
              exact isTypeScript_member noKeys member noFunction mark.1 mark.2 below
            | true =>
              rw [show optionalMark true = ['='] from rfl] at noFunction below ⊢
              rw [translation_equals_member noKeys member mark.1 mark.2 noFunction]
              exact below s (by simp) member.marked.phrase

theorem isTypeScript_translation (returns : IsPath c.defaultReturnType.toList)
    (phrase : IsMarkedPhrase IsTyped s) : IsTypeScript (c.translation s) := by
  induction length : s.length using Nat.strongRecOn generalizing s with
  | ind n ih =>
    subst length
    exact isTypeScript_step noKeys returns phrase fun r shorter inner => ih r.length shorter inner rfl

end Unconfigured

end Ambient.TypeExpr

namespace Ambient.Config

open TypeExpr

/-- **Type expressions are translated to types.** In a configuration without replacements of types whose
default return type is a name, every phrase whose generic applications are no arrays in disguise is
translated to a TypeScript type. -/
theorem isTypeScript_typeText (c : Config) (raw : String) (noKeys : c.typeReplacements.keys = [])
    (returns : IsPath c.defaultReturnType.toList) (phrase : IsPhrase IsTyped raw.toList) :
    IsTypeScript (c.typeText raw).text :=
  isTypeScript_translation noKeys returns phrase.unmarked

/-- A function type that takes marked arguments and returns a record, in a union with a dictionary. -/
theorem isTypeScript_typeText_callback : IsTypeScript (({} : Config).typeText
    "function(?A, ...Array.<B|C>=): \x7bd: E, f\x7d | Object.<K, array>").text := by
  have letter : ∀ c, IsAsciiIdentifier [c] → IsMember IsTyped [c] := fun c identifier =>
    .name (.single identifier)
  have union : IsPhrase IsTyped ['B', '|', 'C'] := .mk (.cons ['B'] 0 0 (.single ['C'])) (by
    rw [List.forall_mem_cons, List.forall_mem_singleton]
    exact ⟨letter 'B' ⟨by decide, by decide⟩, letter 'C' ⟨by decide, by decide⟩⟩)
  have array : IsMember IsTyped "Array.<B|C>".toList :=
    .generic true isPath_array (fun _ => ⟨rfl, rfl⟩) (.single ['B', '|', 'C'])
      (List.forall_mem_singleton.2 union)
  have record : IsMember IsTyped "\x7bd: E, f\x7d".toList := by
    refine .record (.joined (.cons "d: E".toList 0 1 (.single ['f']))) ?_
    rw [List.forall_mem_cons, List.forall_mem_singleton]
    exact ⟨@IsEntry.typed _ ['d'] _ 0 1 ⟨by decide, by decide⟩
        (letter 'E' ⟨by decide, by decide⟩).phrase, .bare ⟨by decide, by decide⟩⟩
  have call : IsMember IsTyped "function(?A, ...Array.<B|C>=): \x7bd: E, f\x7d".toList := by
    refine .callReturns 0 1 (.joined (.cons "?A".toList 0 1 (.single "...Array.<B|C>=".toList))) ?_
      record
    rw [List.forall_mem_cons, List.forall_mem_singleton]
    exact ⟨.mk false false (letter 'A' ⟨by decide, by decide⟩).optional.phrase,
      .mk true true array.phrase⟩
  have dictionary : IsMember IsTyped "Object.<K, array>".toList := by
    refine .generic true isPath_object (fun word => absurd word (by decide))
      (.cons ['K'] 0 1 (.single "array".toList)) ?_
    rw [List.forall_mem_cons, List.forall_mem_singleton]
    exact ⟨(letter 'K' ⟨by decide, by decide⟩).phrase,
      (IsMember.name (.single ⟨by decide, by decide⟩)).phrase⟩
  refine isTypeScript_typeText {} _ rfl isPath_any ?_
  exact call.phrase.union dictionary.phrase 1 1

/-- Two arguments of `Array` stay in one element text, and another spelling of `array` is a base with
brackets: neither is printed as a type. -/
theorem not_isTypeScript_typeText :
    (IsPhrase (fun _ _ => True) "Array.<K,V>".toList ∧
      (({} : Config).typeText "Array.<K,V>").text = "K,V[]" ∧ ¬ IsTypeScript "K,V[]") ∧
    IsPhrase (fun _ _ => True) "array.<T>".toList ∧
      (({} : Config).typeText "array.<T>").text = "any[]<T>" ∧ ¬ IsTypeScript "any[]<T>" := by
  have letter : ∀ c, IsAsciiIdentifier [c] → IsPhrase (fun _ _ => True) [c] := fun c identifier =>
    (IsMember.name (.single identifier)).phrase
  refine ⟨⟨?_, ?_, ?_⟩, ?_, ?_, ?_⟩
  · refine (IsMember.generic true isPath_array trivial (.cons ['K'] 0 0 (.single ['V'])) ?_).phrase
    rw [List.forall_mem_cons, List.forall_mem_singleton]
    exact ⟨letter 'K' ⟨by decide, by decide⟩, letter 'V' ⟨by decide, by decide⟩⟩
  · have form : Form.of "Array.<K,V>".toList = .array "K,V".toList := rfl
    rw [text_typeText, translation_array (by decide) (by decide) form,
      translation_named (by decide) (by decide) rfl]
    rfl
  · exact fun h => absurd h.spaced (by decide)
  · have isPath : IsPath "array".toList := .single ⟨by decide, by decide⟩
    exact (IsMember.generic true isPath trivial (.single ['T'])
      (List.forall_mem_singleton.2 (letter 'T' ⟨by decide, by decide⟩))).phrase
  · have form : Form.of "array.<T>".toList = .generic "array".toList [['T']] := rfl
    rw [text_typeText, translation_generic (by decide) (by decide) form,
      translation_untypedArray (by decide) (by decide) rfl, List.map_singleton,
      translation_named (by decide) (by decide) rfl]
    rfl
  · exact fun h => absurd h.spaced (by decide)

end Ambient.Config
