import Ambient.Declaration.Parameters
import Ambient.Proofs.Rendering
import Ambient.Proofs.TypeExpr.Names
import Ambient.Proofs.TypeExpr.Translation
/-!
# Printed parameter lists

Parameter lists are printed in two places: those of documented functions, and those of function
types inside of type expressions. Both go through the list with a flag that says whether an optional
parameter has been met. Here the flag is replaced by a condition on the position, and what holds of
every printed list is read off it.

The names in the list of a documented function are the declared ones as far as these are
identifiers. The others are made up from the position, without a look at what is declared.

## Main definitions

* `ParamEntry`: an entry of a parameter list as both printers see it.
* `ParamEntry.isOptionalAt`: whether the entry at a position is optional.
* `ParamEntry.texts`: the printed entries.
* `Param.hasOwnName`: whether a parameter is printed under its declared name.

## Main statements

* `ParamEntry.printFrom_eq`: the flag is a condition on the position.
* `print_optional_suffix`: from the first optional parameter on all are optional, in both printers.
* `nodup_names_slots_iff`: when all parameters of a list are printed under different names.
-/

namespace Ambient

/-- An entry of a parameter list as both printers see it. -/
structure ParamEntry where
  name : String
  type : String
  /-- Takes all further arguments. -/
  isRest : Bool
  /-- May be left out by itself, whatever comes before it. -/
  isOmissible : Bool
  deriving DecidableEq

namespace ParamEntry

/-- The printed entry. A rest parameter has no question mark. -/
def text (e : ParamEntry) (isOptional : Bool) : String :=
  if e.isRest then "..." ++ e.name ++ ": " ++ e.type ++ "[]"
  else e.name ++ (if isOptional then "?" else "") ++ ": " ++ e.type

/-- Whether an entry makes those behind it optional. -/
def opensSuffix (e : ParamEntry) : Bool := !e.isRest && e.isOmissible

/-- Whether an entry at a position is optional: it or one before it may be left out and is no rest
parameter. -/
def isOptionalAt (entries : List ParamEntry) (i : Nat) : Bool :=
  (entries.take (i + 1)).any opensSuffix

/-- The printed entries of a parameter list. -/
def texts (entries : List ParamEntry) : List String :=
  entries.mapIdx fun i e => e.text (isOptionalAt entries i)

/-- The printed entries, given whether an earlier one was optional. -/
def printFrom (afterOptional : Bool) : List ParamEntry → List String
  | [] => []
  | e :: rest =>
    e.text (afterOptional || e.isOmissible) :: printFrom (afterOptional || e.opensSuffix) rest

/-! ## The flag and the position -/

variable {entries : List ParamEntry} {e : ParamEntry} {i j : Nat}

theorem text_eq_text_of_isRest (isRest : e.isRest = true) (first second : Bool) :
    e.text first = e.text second := by
  unfold text
  rw [if_pos isRest, if_pos isRest]

/-- The flag is a condition on the position. -/
theorem printFrom_eq (afterOptional : Bool) (entries : List ParamEntry) :
    printFrom afterOptional entries =
      entries.mapIdx fun i e => e.text (afterOptional || isOptionalAt entries i) := by
  induction entries generalizing afterOptional with
  | nil => rfl
  | cons e rest ih =>
    have first : e.text (afterOptional || e.isOmissible) =
        e.text (afterOptional || e.opensSuffix) := by
      cases isRest : e.isRest with
      | true => exact text_eq_text_of_isRest isRest _ _
      | false => rw [opensSuffix, isRest, Bool.not_false, Bool.true_and]
    rw [printFrom, ih, List.mapIdx_cons, first]
    simp only [isOptionalAt, List.take_succ_cons, List.any_cons, List.take_zero, List.any_nil,
      Bool.or_false, Bool.or_assoc]

/-- What is optional makes all that follows it optional. -/
theorem isOptionalAt_of_le (optional : isOptionalAt entries i = true) (behind : i ≤ j) :
    isOptionalAt entries j = true := by
  unfold isOptionalAt at optional ⊢
  rw [List.any_eq_true] at optional ⊢
  obtain ⟨e, mem, opens⟩ := optional
  have further : entries.take (i + 1) <+: entries.take (j + 1) :=
    List.take_prefix_take_left (Nat.succ_le_succ behind)
  exact ⟨e, further.subset mem, opens⟩

/-- The question mark shows. -/
theorem text_true_ne_text_false (plain : e.isRest = false) : e.text true ≠ e.text false := by
  intro same
  have lengths := congrArg String.length same
  unfold text at lengths
  rw [plain] at lengths
  simp only [Bool.false_eq_true, if_false, if_true, String.length_append] at lengths
  have mark : "?".length = 1 := rfl
  have none : "".length = 0 := rfl
  omega

theorem getElem?_texts (found : entries[i]? = some e) :
    (texts entries)[i]? = some (e.text (isOptionalAt entries i)) := by
  rw [texts, List.getElem?_mapIdx, found]
  rfl

/-- An entry is printed with a question mark only if it is optional. -/
theorem isOptionalAt_of_text (plain : e.isRest = false) (found : entries[i]? = some e)
    (marked : (texts entries)[i]? = some (e.text true)) : isOptionalAt entries i = true := by
  rw [getElem?_texts found, Option.some.injEq] at marked
  cases optional : isOptionalAt entries i with
  | true => rfl
  | false =>
    rw [optional] at marked
    exact absurd marked.symm (text_true_ne_text_false plain)

end ParamEntry

open TypeExpr

variable {c : Config}

/-- Behind the first element positions count from the next one on. -/
theorem mapIdx_from_next {α β : Type} (f : Nat → α → β) (index : Nat) (xs : List α) :
    (xs.mapIdx fun i x => f (index + (i + 1)) x) = xs.mapIdx fun i x => f (index + 1 + i) x := by
  simp only [Nat.add_assoc, Nat.add_comm 1]

/-! ## The parameters of documented functions -/

/-- The printed type of a parameter, for a rest parameter the type of its elements. -/
def Param.printedType (c : Config) (p : Param) : String :=
  let type := c.printedType p.alternatives
  if p.isRest then Piece.parenthesized type else type

/-- A parameter that stands at a position, as an entry. -/
def ParamEntry.ofParam (c : Config) (index : Nat) (p : Param) : ParamEntry where
  name := paramName index p
  type := p.printedType c
  isRest := p.isRest
  isOmissible := p.isOptional || p.allowsUndefined

/-- The entries of the parameter list of a documented function: one for each parameter that
documents no field of another. -/
def ParamEntry.ofParams (c : Config) (params : List Param) : List ParamEntry :=
  (plainParams params).mapIdx (ParamEntry.ofParam c)

/-- **The list of a documented function.** -/
theorem print_slotsFrom_eq (subject : String) (index : Nat) (afterOptional : Bool)
    (params : List Param) :
    (slotsFrom index afterOptional params).map (fun slot => Line.print c (slot.line subject)) =
      ParamEntry.printFrom afterOptional
        (params.mapIdx fun i p => ParamEntry.ofParam c (index + i) p) := by
  induction params generalizing index afterOptional with
  | nil => rfl
  | cons p rest ih =>
    rw [List.mapIdx_cons, ParamEntry.printFrom, mapIdx_from_next (ParamEntry.ofParam c),
      Nat.add_zero]
    cases isRest : p.isRest with
    | true =>
      have stays : (ParamEntry.ofParam c index p).opensSuffix = false := by
        simp [ParamEntry.opensSuffix, ParamEntry.ofParam, isRest]
      rw [slotsFrom, if_pos isRest, List.map_cons, ih, stays, Bool.or_false,
        Slot.print_line_of_isRest rfl]
      simp [ParamEntry.text, ParamEntry.ofParam, Param.printedType, isRest]
    | false =>
      have opens : (ParamEntry.ofParam c index p).opensSuffix =
          (p.isOptional || p.allowsUndefined) := by
        simp [ParamEntry.opensSuffix, ParamEntry.ofParam, isRest]
      rw [slotsFrom, isRest, if_neg Bool.false_ne_true, List.map_cons, ih, opens,
        Slot.print_line_of_plain rfl, Bool.or_assoc]
      simp [ParamEntry.text, ParamEntry.ofParam, Param.printedType, isRest]

/-! ## The arguments of function types -/

/-- An argument that stands at a position, as an entry. -/
def ParamEntry.ofArgument (c : Config) (index : Nat) (argument : TypeExpr.Argument (List Char)) :
    ParamEntry where
  name := "arg" ++ toString index
  type := c.translation argument.type
  isRest := argument.isRest
  isOmissible := argument.isOptional

/-- The entries of the parameter list of a function type: one for each argument. -/
def ParamEntry.ofArguments (c : Config) (arguments : List (TypeExpr.Argument (List Char))) :
    List ParamEntry :=
  arguments.mapIdx (ParamEntry.ofArgument c)

/-- **The list of a function type.** -/
theorem printArguments_eq_printFrom (index : Nat) (afterOptional : Bool)
    (arguments : List (TypeExpr.Argument (List Char))) :
    printArguments index afterOptional (arguments.map (TypeExpr.Argument.map c.translation)) =
      ParamEntry.printFrom afterOptional
        (arguments.mapIdx fun i argument => ParamEntry.ofArgument c (index + i) argument) := by
  induction arguments generalizing index afterOptional with
  | nil => rfl
  | cons argument rest ih =>
    rw [List.map_cons, List.mapIdx_cons, ParamEntry.printFrom,
      mapIdx_from_next (ParamEntry.ofArgument c), Nat.add_zero, printArguments, ih]
    simp only [ih]
    cases isRest : argument.isRest <;>
      simp [ParamEntry.text, ParamEntry.opensSuffix, ParamEntry.ofArgument, TypeExpr.Argument.map,
        isRest]

/-! ## Optional parameters -/

/-- **Optional parameters form a suffix**, in both printers. The list of a documented function has
one entry for each parameter that documents no field, the list of a function type one for each
argument, in this order. A rest parameter is printed without a question mark; another one has a
question mark if and only if it or one before it, of those that are no rest parameters, may be left
out. So behind an entry with a question mark all have one, but for rest parameters. -/
theorem print_optional_suffix (c : Config) (subject : String) :
    (∀ params, Line.print c (paramsLine subject params) =
      Text.joinWith ", " (ParamEntry.texts (ParamEntry.ofParams c params))) ∧
    (∀ signature : Signature (List Char),
      Signature.print ⟨signature.arguments.map (TypeExpr.Argument.map c.translation),
          signature.returns.map c.translation⟩ c.defaultReturnType =
        "(" ++
          Text.joinWith ", " (ParamEntry.texts (ParamEntry.ofArguments c signature.arguments)) ++
            ") => " ++ (signature.returns.map c.translation).getD c.defaultReturnType) ∧
    ∀ (entries : List ParamEntry) (i j : Nat) (e e' : ParamEntry), i < j →
      entries[i]? = some e → entries[j]? = some e' → e.isRest = false → e'.isRest = false →
      (ParamEntry.texts entries)[i]? = some (e.text true) →
      (ParamEntry.texts entries)[j]? = some (e'.text true) := by
  refine ⟨fun params => ?_, fun signature => ?_, ?_⟩
  · have printed := print_slotsFrom_eq (c := c) subject 0 false (plainParams params)
    simp only [Nat.zero_add] at printed
    rw [paramsLine, Line.print_joinWith, List.map_map, slots]
    refine congrArg (Text.joinWith ", ") (Eq.trans printed ?_)
    rw [ParamEntry.printFrom_eq]
    simp only [Bool.false_or]
    rfl
  · have printed := printArguments_eq_printFrom (c := c) 0 false signature.arguments
    simp only [Nat.zero_add] at printed
    rw [Signature.print, printed, ParamEntry.printFrom_eq]
    simp only [Bool.false_or]
    rfl
  · intro entries i j e e' behind first second plain plain' marked
    have optional := ParamEntry.isOptionalAt_of_text plain first marked
    rw [ParamEntry.getElem?_texts second,
      ParamEntry.isOptionalAt_of_le optional (Nat.le_of_lt behind)]

/-- A field of another parameter, a type with `undefined`, a rest parameter and one without a
name. -/
theorem print_optional_suffix_mixed :
    let params : List Param := [{ name := some "a" },
      { name := some "a.x", optionalMark := some true },
      { name := some "b", type := some ⟨["undefined"]⟩ },
      { name := some "more", restMark := some true }, {}]
    let entries := ParamEntry.ofParams {} params
    Line.print {} (paramsLine "f" params) = "a: any, b?: any, ...more: any[], arg3?: any" ∧
      (ParamEntry.texts entries)[1]? = some "b?: any" ∧
      (ParamEntry.texts entries)[3]? = some "arg3?: any" := by
  intro params entries
  obtain ⟨printed, -, suffix⟩ := print_optional_suffix {} "f"
  have first : (ParamEntry.texts entries)[1]? = some "b?: any" := rfl
  exact ⟨(printed params).trans rfl, first,
    suffix entries 1 3 ⟨"b", "any", false, true⟩ ⟨"arg3", "any", false, false⟩ (by decide) rfl rfl
      rfl rfl first⟩

/-! ## Names -/

/-- Whether a parameter is printed under its declared name: that is an identifier. -/
def Param.hasOwnName (p : Param) : Bool :=
  match p.name with
  | some name => Text.isIdentifier name.toList
  | none => false

theorem paramName_of_hasOwnName {p : Param} (own : p.hasOwnName = true) (index : Nat) :
    p.name = some (paramName index p) := by
  unfold Param.hasOwnName at own
  unfold paramName
  cases name : p.name with
  | none =>
    rw [name] at own
    cases own
  | some name' =>
    rw [name] at own
    simp only [if_pos own]

theorem paramName_of_nameless {p : Param} (nameless : p.hasOwnName = false) (index : Nat) :
    paramName index p = "arg" ++ toString index := by
  unfold Param.hasOwnName at nameless
  unfold paramName
  cases name : p.name with
  | none => rfl
  | some name' =>
    rw [name] at nameless
    simp only [nameless, Bool.false_eq_true, if_false]

/-- A name by position is an identifier. -/
theorem isIdentifier_position (index : Nat) :
    Text.isIdentifier ("arg" ++ toString index).toList = true := by
  have chars : ∀ ch ∈ ("arg" ++ toString index).toList, Text.isNameChar ch = true :=
    fun ch mem => isNameChar_of_isWordChar (isWordChar_of_mem_position index ch mem)
  have whole : ("arg" ++ toString index).toList = 'a' :: ("rg" ++ toString index).toList := by
    simp only [String.toList_append]
    rfl
  rw [whole] at chars ⊢
  rw [Text.isIdentifier, Bool.and_eq_true, List.all_eq_true]
  exact ⟨by decide, fun ch mem => chars ch (List.mem_cons_of_mem _ mem)⟩

theorem position_inj {i j : Nat} (same : "arg" ++ toString i = "arg" ++ toString j) : i = j := by
  have digits : Nat.toDigits 10 i = Nat.toDigits 10 j := by
    rw [← Nat.toList_repr, ← Nat.toList_repr]
    exact congrArg String.toList ((String.append_right_inj "arg").1 same)
  rw [← Nat.ofDigitChars_toDigits (b := 10) (n := i) (by decide) (by decide), digits,
    Nat.ofDigitChars_toDigits (by decide) (by decide)]

theorem map_name_slotsFrom (index : Nat) (afterOptional : Bool) (params : List Param) :
    (slotsFrom index afterOptional params).map Slot.name =
      params.mapIdx fun i p => paramName (index + i) p := by
  induction params generalizing index afterOptional with
  | nil => rfl
  | cons p rest ih =>
    have names : ∀ afterOptional : Bool, (slotsFrom (index + 1) afterOptional rest).map Slot.name =
        rest.mapIdx fun i p => paramName (index + (i + 1)) p := by
      intro afterOptional
      rw [ih, mapIdx_from_next paramName]
    unfold slotsFrom
    rw [List.mapIdx_cons, Nat.add_zero]
    cases p.isRest <;> simp [names]

/-- Parameters at two positions are printed under one name if both declare it, or if one declares
the name that is made up for the other. -/
theorem name_of_paramName_eq {i j : Nat} {p q : Param} (apart : i ≠ j)
    (same : paramName i p = paramName j q) :
    (∃ name, p.name = some name ∧ q.name = some name) ∨
      (p.hasOwnName = false ∧ q.name = some ("arg" ++ toString i)) ∨
      (q.hasOwnName = false ∧ p.name = some ("arg" ++ toString j)) := by
  cases own : p.hasOwnName with
  | true =>
    have declared := paramName_of_hasOwnName own i
    cases own' : q.hasOwnName with
    | true => exact .inl ⟨_, declared, same ▸ paramName_of_hasOwnName own' j⟩
    | false =>
      rw [same, paramName_of_nameless own'] at declared
      exact .inr (.inr ⟨rfl, declared⟩)
  | false =>
    rw [paramName_of_nameless own] at same
    cases own' : q.hasOwnName with
    | true =>
      have declared := paramName_of_hasOwnName own' j
      rw [← same] at declared
      exact .inr (.inl ⟨rfl, declared⟩)
    | false =>
      rw [paramName_of_nameless own'] at same
      exact absurd (position_inj same) apart

section Distinct

variable {params : List Param} {i j : Nat} {p q : Param}

theorem map_name_slots (params : List Param) :
    (slots params).map Slot.name = (plainParams params).mapIdx paramName := by
  rw [slots, map_name_slotsFrom]
  simp only [Nat.zero_add]

theorem getElem?_map_name (found : (plainParams params)[i]? = some p) :
    ((slots params).map Slot.name)[i]? = some (paramName i p) := by
  rw [map_name_slots, List.getElem?_mapIdx, found]
  rfl

/-- Parameters at two positions have different declared names. -/
theorem name_ne_of_distinct (distinct : (params.filterMap Param.name).Nodup)
    (first : (plainParams params)[i]? = some p) (second : (plainParams params)[j]? = some q)
    (before : i < j) {name : String} (declared : p.name = some name) : q.name ≠ some name := by
  have kept : ((plainParams params).filterMap Param.name).Nodup :=
    distinct.sublist (List.filter_sublist.filterMap Param.name)
  rw [List.nodup_iff_pairwise_ne, List.pairwise_filterMap, List.pairwise_iff_getElem] at kept
  obtain ⟨inside, rfl⟩ := List.getElem?_eq_some_iff.1 first
  obtain ⟨inside', rfl⟩ := List.getElem?_eq_some_iff.1 second
  intro declared'
  exact kept i j inside inside' before name declared name declared' rfl

/-- **When all names in a parameter list are different.** Parameters with different declared names
are printed under different names if and only if no name that is made up for one of them is the
declared name of another. -/
theorem nodup_names_slots_iff (distinct : (params.filterMap Param.name).Nodup) :
    ((slots params).map Slot.name).Nodup ↔
      ∀ (i : Nat) (p : Param), (plainParams params)[i]? = some p → p.hasOwnName = false →
        ∀ q ∈ plainParams params, q.name ≠ some ("arg" ++ toString i) := by
  constructor
  · intro nodup i p found nameless q mem declared
    obtain ⟨j, found'⟩ := List.mem_iff_getElem?.1 mem
    -- The declared name is an identifier, so it is printed for the other parameter, too.
    have own : q.hasOwnName = true := by
      rw [Param.hasOwnName, declared]
      exact isIdentifier_position i
    have same : paramName j q = paramName i p := by
      rw [paramName_of_nameless nameless]
      exact Option.some.inj ((paramName_of_hasOwnName own j).symm.trans declared)
    have inside := (List.getElem?_eq_some_iff.1 (getElem?_map_name found')).1
    obtain rfl : j = i := by
      refine (List.getElem?_inj inside nodup).1 ?_
      rw [getElem?_map_name found, getElem?_map_name found', same]
    cases found.symm.trans found'
    exact absurd (nameless.symm.trans own) Bool.false_ne_true
  · intro unused
    rw [map_name_slots, List.nodup_iff_pairwise_ne, List.pairwise_iff_getElem]
    intro i j inside inside' before
    rw [List.length_mapIdx] at inside inside'
    rw [List.getElem_mapIdx, List.getElem_mapIdx]
    have first := List.getElem?_eq_getElem inside
    have second := List.getElem?_eq_getElem inside'
    intro same
    rcases name_of_paramName_eq (Nat.ne_of_lt before) same with
      ⟨name, declared, declared'⟩ | ⟨nameless, declared⟩ | ⟨nameless, declared⟩
    · exact name_ne_of_distinct distinct first second before declared declared'
    · exact unused i _ first nameless _ (List.getElem_mem inside') declared
    · exact unused j _ second nameless _ (List.getElem_mem inside) declared

end Distinct

/-- A declared name by position, a name that is no identifier and a missing one. -/
theorem nodup_names_slots_mixed :
    let params : List Param := [{ name := some "arg1" }, { name := some "arg1.x" },
      { name := some "arg0" }, { name := some "a b" }, {}]
    (params.filterMap Param.name).Nodup ∧ ((slots params).map Slot.name).Nodup ∧
      Line.print {} (paramsLine "f" params) = "arg1: any, arg0: any, arg2: any, arg3: any" := by
  intro params
  have distinct : (params.filterMap Param.name).Nodup := by decide
  refine ⟨distinct, (nodup_names_slots_iff distinct).2 fun i p found nameless => ?_, rfl⟩
  match i, found with
  | 0, found | 1, found =>
    cases found
    exact absurd nameless (by decide)
  | 2, _ | 3, _ => decide

/-- A name that is made up for one parameter and declared for another. -/
theorem names_slots_collide :
    let params : List Param := [{ name := some "arg1", type := some ⟨["string"]⟩ },
      { type := some ⟨["number"]⟩ }]
    (params.filterMap Param.name).Nodup ∧ ¬ ((slots params).map Slot.name).Nodup ∧
      Line.print {} (paramsLine "f" params) = "arg1: string, arg1: number" := by
  intro params
  have first : ({} : Config).translation "string".toList = "string" :=
    (Config.translation_named (by decide) (by decide) rfl).trans (by decide)
  have second : ({} : Config).translation "number".toList = "number" :=
    (Config.translation_named (by decide) (by decide) rfl).trans (by decide)
  have line : paramsLine "f" params = [.text "arg1: ", .types "f" ["string"], .text ", ",
      .text "arg1: ", .types "f" ["number"]] := by decide
  refine ⟨by decide, by decide, ?_⟩
  rw [line]
  simp only [Line.print, Piece.print, Config.text_unionText, List.map_cons, List.map_nil,
    Text.joinWith, first, second]
  decide

end Ambient
