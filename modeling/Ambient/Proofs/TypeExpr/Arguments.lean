import Ambient.Proofs.TypeExpr.Cuts
import Ambient.Proofs.TypeExpr.Ends
/-!
# Reading the arguments of spelled function types

An entry in the parentheses of a function type is read as the argument that it spells. The marks in
front and behind are taken off, and what is left spells a type of the same rendering. Only a `?` on
that type, or on a member of the union that it is, makes the argument optional besides the equals
sign.

## Main definitions

* `DocType.Reads`: an entry that was read stands for an argument.

## Main statements

* `DocType.SpellsArgument.bindsContext_eq_false`: no argument is taken for a binding.
* `DocType.SpellsArgument.reads`: an argument is read as it was spelled.
* `DocType.renderArguments_eq`: the arguments of a function type are printed as they were spelled.
-/

namespace Ambient.DocType

open TypeExpr

variable {t : DocType} {s : List Char}

/-! ## Marks -/

/-- The mark of a rest argument is taken off. -/
theorem SpellsMarked.withoutRestMark_eq (marked : SpellsMarked t s) (isRest : Bool) :
    withoutRestMark (restMark isRest ++ s) = (s, isRest) := by
  cases isRest with
  | false => exact TypeExpr.withoutRestMark_eq_self marked.item.tight (marked.head?_ne rfl)
  | true => exact withoutRestMark_dots marked.item.tight

/-- Without `?` in front, the equals sign is what is taken off. -/
theorem Spells.withoutOptionalMark_eq (spelled : Spells t s) (noMark : s.head? ≠ some '?')
    (isOptional : Bool) :
    withoutOptionalMark (s ++ optionalMark isOptional) = (s, isOptional) := by
  have tight := spelled.regular.tight
  cases isOptional with
  | false =>
    rw [show optionalMark false = [] from rfl, List.append_nil]
    exact withoutOptionalMark_eq_self tight noMark (spelled.regular.getLast?_ne rfl)
  | true => exact withoutOptionalMark_concat tight noMark

/-- Whether a type other than a union is marked by `?` is read off its spelling. -/
theorem Spells.withoutOptionalMark_snd (spelled : Spells t s) (noUnion : t.isUnion = false) :
    (withoutOptionalMark s).2 = t.isOptional := by
  by_cases first : s.head? = some '?'
  · obtain ⟨u, r, rfl, marked, -, -⟩ := spelled.unmarked.exists_unmarked first
    rw [withoutOptionalMark_cons marked.item.tight]
    exact ((spelled.head?_eq_optional_iff noUnion).1 first).symm
  · have unmarked := spelled.withoutOptionalMark_eq first false
    rw [show optionalMark false = [] from rfl, List.append_nil] at unmarked
    have noMark : t.isOptional = false := by
      rw [← Bool.not_eq_true]
      exact fun optional => first ((spelled.head?_eq_optional_iff noUnion).2 optional)
    rw [unmarked, noMark]

/-! ## Alternatives -/

/-- A type other than a union has one alternative, a union has its members. -/
theorem Spells.any_alternative (spelled : Spells t s) :
    (splitOutside '|' s).any (fun member => (withoutOptionalMark member).2) = t.admitsMissing := by
  cases union : t.isUnion with
  | false =>
    have noMissing : t.admitsMissing = t.isOptional := by
      cases t <;> first | rfl | cases union
    rw [spelled.unmarked.splitOutside_bar union, List.any_cons, List.any_nil, Bool.or_false,
      spelled.withoutOptionalMark_snd union, noMissing]
  | true =>
    cases spelled with
    | @union members pieces s several noUnion each joined =>
      have marked := each.imp fun _ _ inner => Spells.unmarked inner
      rw [splitOutside_bars marked noUnion joined]
      show _ = members.any isOptional
      clear several joined marked union
      induction each with
      | nil => rfl
      | cons inner _ ih =>
        rw [List.forall_mem_cons] at noUnion
        rw [List.any_cons, List.any_cons, inner.withoutOptionalMark_snd noUnion.1, ih noUnion.2]
    | _ => cases union

/-! ## Entries -/

/-- An entry of a function type that was read stands for an argument. -/
structure Reads (argument : TypeExpr.Argument DocType) (entry : TypeExpr.Argument (List Char)) :
    Prop where
  type : ∃ u, SpellsMarked u entry.type ∧ ∀ c, argument.type.render c = u.render c
  isOptional : entry.isOptional = (argument.isOptional || argument.type.admitsMissing)
  isRest : entry.isRest = argument.isRest

variable {argument : TypeExpr.Argument DocType} {piece : List Char}

/-- **An argument is read as it was spelled.** -/
theorem SpellsArgument.reads (spelled : SpellsArgument argument piece) :
    Reads argument (TypeExpr.Argument.read piece) := by
  cases spelled with
  | @mk _ s inner =>
    have marked := SpellsMarked.mk inner argument.isOptional
    have noRest := marked.withoutRestMark_eq argument.isRest
    by_cases first : (s ++ optionalMark argument.isOptional).head? = some '?'
    · obtain ⟨u, r, same, marked', rendering, missing⟩ := marked.exists_unmarked first
      have noMark := withoutOptionalMark_cons marked'.item.tight
      rw [← same] at noMark
      constructor
      · refine ⟨u, ?_, rendering⟩
        simp only [TypeExpr.Argument.read, noRest, noMark]
        exact marked'
      · simp only [TypeExpr.Argument.read, noRest, noMark, missing, Bool.or_true, Bool.true_or]
      · simp only [TypeExpr.Argument.read, noRest]
    · have noOptional : s.head? ≠ some '?' := by
        rwa [← inner.regular.tight.head?_append]
      have noMark := inner.withoutOptionalMark_eq noOptional argument.isOptional
      constructor
      · refine ⟨argument.type, ?_, fun c => rfl⟩
        simp only [TypeExpr.Argument.read, noRest, noMark]
        exact inner.unmarked
      · simp only [TypeExpr.Argument.read, noRest, noMark, inner.any_alternative]
      · simp only [TypeExpr.Argument.read, noRest]

/-- No argument is taken for a binding of `this` or `new`. -/
theorem SpellsArgument.bindsContext_eq_false (spelled : SpellsArgument argument piece) :
    bindsContext piece = false := by
  cases spelled with
  | @mk _ s inner =>
    have marked := SpellsMarked.mk inner argument.isOptional
    obtain ⟨c, first, solid⟩ :=
      (inner.regular.item_argument argument.isRest argument.isOptional).tight.first
    have bare := Text.trimStart_eq_self first solid
    cases rest : argument.isRest with
    | false =>
      rw [rest, show restMark false = [] from rfl, List.nil_append] at bare
      rw [show restMark false = [] from rfl, List.nil_append]
      obtain ⟨word, rest, starts, noColon, _⟩ := marked.exists_start
      exact TypeExpr.bindsContext_eq_false bare starts noColon
    | true =>
      rw [rest] at bare
      have starts : StartsWith (restMark true ++ (s ++ optionalMark argument.isOptional)) []
          (restMark true ++ (s ++ optionalMark argument.isOptional)) := by
        refine ⟨rfl, fun c mem => absurd mem List.not_mem_nil, ?_⟩
        intro c first
        cases first
        decide
      refine TypeExpr.bindsContext_eq_false bare starts ?_
      rw [bare]
      rintro first
      cases first

/-- The entries of a function type are its arguments. -/
theorem readArguments_eq {arguments : List (TypeExpr.Argument DocType)} {pieces : List (List Char)}
    {s : List Char} (each : List.Forall₂ SpellsArgument arguments pieces)
    (listed : Listed pieces s) : readArguments s = pieces.map TypeExpr.Argument.read := by
  have kept : pieces.filter (fun entry => !bindsContext entry) = pieces := by
    rw [List.filter_eq_self]
    intro piece mem
    obtain ⟨argument, _, spelled⟩ := exists_of_mem_forall₂ each piece mem
    rw [spelled.bindsContext_eq_false]
    rfl
  rw [readArguments, Item.splitOutside_listed (items_of_arguments each) listed, kept]

/-- An equals sign is no return type. -/
theorem read?_procedure_equals {arguments : List (TypeExpr.Argument DocType)}
    {pieces : List (List Char)} (each : List.Forall₂ SpellsArgument arguments pieces)
    (listed : Listed pieces s) :
    Signature.read? ("function".toList ++ '(' :: (s ++ [')']) ++ ['=']) = none := by
  have items := items_of_arguments each
  rw [call_append, Signature.read?_function (Item.nested_listed items listed)]
  rfl

/-- **The arguments of a function type are printed as they were spelled.** -/
theorem printArguments_eq {c : Config} {translate : List Char → String}
    {arguments : List (TypeExpr.Argument DocType)} {entries : List (TypeExpr.Argument (List Char))}
    (each : List.Forall₂ Reads arguments entries)
    (types : ∀ entry ∈ entries, ∀ u, SpellsMarked u entry.type → translate entry.type = u.render c)
    (index : Nat) (afterOptional : Bool) :
    printArguments index afterOptional (entries.map (TypeExpr.Argument.map translate)) =
      renderArguments c index afterOptional arguments := by
  induction each generalizing index afterOptional with
  | nil => rfl
  | @cons argument entry arguments entries reads _ ih =>
    rw [List.forall_mem_cons] at types
    obtain ⟨u, marked, rendering⟩ := reads.type
    have type : translate entry.type = argument.type.render c := by
      rw [types.1 u marked, rendering]
    obtain ⟨t, isOptional, isRest⟩ := argument
    have optionals := reads.isOptional
    have rests := reads.isRest
    simp only at type optionals rests
    have name : "..." ++ ("arg" ++ toString index) = "...arg" ++ toString index := by
      rw [← String.append_assoc]
      rfl
    rw [List.map_cons, printArguments, renderArguments]
    simp only [TypeExpr.Argument.map, rests, optionals, type, ih types.2, name, Bool.or_assoc]

end Ambient.DocType
