import Ambient.Proofs.TypeExpr.Sealed
import Ambient.Proofs.TypeExpr.WellFormed
/-!
# Different types are translated to different types

The TypeScript type of a tree shows how the tree is put together, as long as no brackets would be needed
that the printer does not write. What a type starts and ends in tells which form the tree has, and the
types of its parts are sealed, so they can be read off.

Brackets are missing around the element of an array if that is a union or a function type. They are
missing around a function type in a union as well, but there the spelling of the tree has none either,
and is read as a function type that returns a union. Marks of optionality spread to all arguments behind
them.

## Main definitions

* `DocType.MarksSpread`: the arguments that can be read off their types.
* `DocType.Legible`: the trees that can be read off their types.
* `DocType.Conflated`: different trees with the same type.

## Main statements

* `DocType.Legible.sealed`, `DocType.Legible.sameForm`: the outline of a type.
* `DocType.Legible.eq_of_render`: legible trees with the same type are the same.
* `DocType.render_array_union`, `DocType.render_array_function`: arrays that need brackets.
* `Config.typeText_ne`: different legible trees are translated to different types.
* `Config.typeText_conflates`: what becomes of the trees that are not legible.
-/

namespace Ambient

namespace DocType

open TypeExpr

/-! ## Legible trees -/

/-- Marks that show in the type, given whether an argument in front is marked: all arguments behind
a marked one are, and rest arguments are not. -/
inductive MarksSpread : Bool → List (TypeExpr.Argument DocType) → Prop
  | nil {afterMarked : Bool} : MarksSpread afterMarked []
  | cons {afterMarked : Bool} {argument : TypeExpr.Argument DocType}
      {arguments : List (TypeExpr.Argument DocType)}
      (rest : argument.isRest = true → argument.isOptional = false)
      (behind : afterMarked = true → argument.isRest = true ∨ argument.isOptional = true)
      (tail : MarksSpread (afterMarked || argument.isOptional) arguments) :
      MarksSpread afterMarked (argument :: arguments)

/-- The trees whose types show how they are put together: names that are neither replaced nor the word
`array`, arrays of anything but unions and function types, generic applications of such names,
function types with a return type that is no union, and flat unions. -/
inductive Legible (c : Config) : DocType → Prop
  | name {s : List Char} (isName : IsName s) (free : c.replacement? (String.ofList s) = none) :
      Legible c (.name s)
  | array {t : DocType} (noUnion : t.isUnion = false) (noFunction : t.isFunction = false)
      (element : Legible c t) : Legible c (.array t)
  | generic {base : List Char} {args : List DocType} (isName : IsName base)
      (free : c.replacement? (String.ofList base) = none) (each : ∀ t ∈ args, Legible c t) :
      Legible c (.generic base args)
  | function {arguments : List (TypeExpr.Argument DocType)} {t : DocType}
      (marks : MarksSpread false arguments)
      (each : ∀ argument ∈ arguments, Legible c argument.type) (noUnion : t.isUnion = false)
      (returns : Legible c t) : Legible c (.function arguments (some t))
  | union {members : List DocType} (several : 2 ≤ members.length)
      (noUnion : ∀ t ∈ members, t.isUnion = false) (each : ∀ t ∈ members, Legible c t) :
      Legible c (.union members)

/-- The bracket at the end of the type of a tree that is neither a union nor a function type. -/
def closing? : DocType → Option Char
  | .array _ => some ']'
  | .generic _ _ => some '>'
  | _ => none

variable {c : Config} {t u : DocType} {separator : Char}

theorem nameText_of_free {s : List Char} (free : c.replacement? (String.ofList s) = none) :
    nameText c s = String.ofList s := by
  unfold nameText
  rw [free]
  rfl

theorem Legible.admitsMissing (h : Legible c t) : t.admitsMissing = false := by
  cases h with
  | name | array | generic | function => rfl
  | union several noUnion each =>
    rw [DocType.admitsMissing, List.any_eq_false]
    intro u mem
    cases each u mem <;> exact Bool.false_ne_true

/-! ## Arguments -/

/-- An argument at a position of a function type. -/
def argumentText (index : Nat) (isOptional isRest : Bool) (type : String) : String :=
  if isRest then "...arg" ++ toString index ++ ": " ++ type ++ "[]"
  else "arg" ++ toString index ++ (if isOptional then "?" else "") ++ ": " ++ type

theorem renderArguments_cons {afterMarked : Bool} {argument : TypeExpr.Argument DocType}
    {arguments : List (TypeExpr.Argument DocType)}
    (rest : argument.isRest = true → argument.isOptional = false)
    (behind : afterMarked = true → argument.isRest = true ∨ argument.isOptional = true)
    (required : argument.type.admitsMissing = false) (index : Nat) :
    renderArguments c index afterMarked (argument :: arguments) =
      argumentText index argument.isOptional argument.isRest (argument.type.render c) ::
        renderArguments c (index + 1) (afterMarked || argument.isOptional) arguments := by
  obtain ⟨t, isOptional, isRest⟩ := argument
  rw [renderArguments, argumentText]
  cases isRest with
  | true =>
    obtain rfl := rest rfl
    rw [if_pos rfl, if_pos rfl, Bool.or_false]
  | false =>
    have marks : (afterMarked || isOptional) = isOptional := by
      cases afterMarked with
      | false => rfl
      | true => exact ((behind rfl).resolve_left Bool.false_ne_true).symm
    rw [if_neg Bool.false_ne_true, if_neg Bool.false_ne_true, show t.admitsMissing = false from required,
      Bool.or_false, marks]

theorem argumentText_ne (index : Nat) (isOptional isRest : Bool) (type : String) :
    argumentText index isOptional isRest type ≠ "" := by
  intro empty
  have chars := congrArg String.toList empty
  cases isRest <;> simp [argumentText] at chars

theorem sealed_argumentText {type : String} (h : Sealed ',' type.toList) (index : Nat)
    (isOptional isRest : Bool) : Sealed ',' (argumentText index isOptional isRest type).toList := by
  have position : Sealed ',' ("arg" ++ toString index).toList := by
    have word := isWordChar_of_mem_position index
    refine .of_not_mem (.of_isNameChar fun c mem => isNameChar_of_isWordChar (word c mem)) fun mem => ?_
    exact absurd (word _ mem) (by decide)
  have plain : ∀ {text : String}, Whole text.toList ∧ ',' ∉ text.toList ∧ '|' ∉ text.toList →
      Sealed ',' text.toList := fun h => sealed_of_plain (.inl rfl) h
  have colon : Sealed ',' ": ".toList := plain (by decide)
  cases isRest with
  | true =>
    have dots : "...arg" ++ toString index = "..." ++ ("arg" ++ toString index) := by
      rw [← String.append_assoc]
      rfl
    have front : Sealed ',' "...".toList := plain (by decide)
    rw [argumentText, if_pos rfl, dots]
    exact (((front.concat position).concat colon).concat h).concat (plain (by decide))
  | false =>
    have mark : Sealed ',' (if isOptional then "?" else "").toList := by
      cases isOptional <;> exact plain (by decide)
    rw [argumentText, if_neg Bool.false_ne_true]
    exact ((position.concat mark).concat colon).concat h

/-- An argument can be told from any other at its position. -/
theorem eq_of_argumentText {index : Nat} {isOptional isRest isOptional' isRest' : Bool}
    {type type' : String} (rest : isRest = true → isOptional = false)
    (rest' : isRest' = true → isOptional' = false)
    (same : argumentText index isOptional isRest type =
      argumentText index isOptional' isRest' type') :
    isOptional = isOptional' ∧ isRest = isRest' ∧ type = type' := by
  have chars := congrArg String.toList same
  cases isRest with
  | true =>
    obtain rfl := rest rfl
    cases isRest' with
    | true =>
      obtain rfl := rest' rfl
      refine ⟨rfl, rfl, String.toList_inj.1 ?_⟩
      simpa [argumentText] using chars
    | false => simp [argumentText] at chars
  | false =>
    cases isRest' with
    | true => simp [argumentText] at chars
    | false =>
      have marks : isOptional = isOptional' := by
        cases isOptional <;> cases isOptional' <;> first
          | rfl
          | simp [argumentText] at chars
      subst marks
      refine ⟨rfl, rfl, String.toList_inj.1 ?_⟩
      simpa [argumentText] using chars

/-! ## The outline of a type -/

namespace Legible

theorem sealed_renderArguments {arguments : List (TypeExpr.Argument DocType)} {afterMarked : Bool}
    (marks : MarksSpread afterMarked arguments)
    (each : ∀ argument ∈ arguments, Legible c argument.type)
    (types : ∀ argument ∈ arguments, Sealed ',' (argument.type.render c).toList) (index : Nat) :
    ∀ text ∈ renderArguments c index afterMarked arguments,
      text ≠ "" ∧ Sealed ',' text.toList := by
  induction marks generalizing index with
  | nil => exact fun text mem => absurd mem List.not_mem_nil
  | @cons afterMarked argument arguments rest behind tail ih =>
    rw [List.forall_mem_cons] at each types
    rw [renderArguments_cons rest behind each.1.admitsMissing, List.forall_mem_cons]
    exact ⟨⟨argumentText_ne _ _ _ _, sealed_argumentText types.1 _ _ _⟩, ih each.2 types.2 _⟩

/-- A type has commas in brackets only, and bars as well unless it is a union. -/
theorem sealed (h : Legible c t) (isSeparator : separator = ',' ∨ separator = '|')
    (noBar : separator ≠ ',' → t.isUnion = false) : Sealed separator (t.render c).toList := by
  have plain : ∀ {separator : Char}, separator = ',' ∨ separator = '|' →
      isPathChar separator = false ∧ isOpening separator = false ∧ isClosing separator = false := by
    rintro separator (rfl | rfl) <;> exact ⟨rfl, rfl, rfl⟩
  induction h generalizing separator with
  | name isName free =>
    rw [render, nameText_of_free free, String.toList_ofList]
    exact sealed_of_isPath isName.1 (plain isSeparator).1
  | array noUnion noFunction element ih =>
    rw [render]
    exact (ih isSeparator fun _ => noUnion).concat (sealed_of_plain isSeparator (by decide))
  | @generic base args isName free each ih =>
    have inside : Whole (Text.joinWith ", " (renderAll c args)).toList := by
      refine .joinWith ", " (by decide) fun text mem => ?_
      rw [renderAll_eq_map] at mem
      obtain ⟨u, inArgs, rfl⟩ := List.mem_map.1 mem
      exact (ih u inArgs (.inl rfl) fun other => absurd rfl other).toWhole
    have front := sealed_of_isPath isName.1 (plain isSeparator).1
    have whole := front.append
      (.wrap (o := '<') (k := '>') inside rfl rfl (plain isSeparator).2.1 (plain isSeparator).2.2)
    rw [render, nameText_of_free free]
    simpa using whole
  | @function arguments t marks each noUnion returns ihEach ih =>
    have inside : Whole (Text.joinWith ", " (renderArguments c 0 false arguments)).toList := by
      refine .joinWith ", " (by decide) fun text mem => ?_
      exact (sealed_renderArguments marks each
        (fun argument inArgs => ihEach argument inArgs (.inl rfl) fun other => absurd rfl other)
        0 text mem).2.toWhole
    have front : Sealed separator _ :=
      .wrap (o := '(') (k := ')') inside rfl rfl (plain isSeparator).2.1 (plain isSeparator).2.2
    have arrow : Sealed separator " => ".toList := sealed_of_plain isSeparator (by decide)
    have whole := (front.append arrow).append (ih isSeparator fun _ => noUnion)
    rw [render, renderReturns]
    simpa using whole
  | @union members several noUnion each ih =>
    obtain rfl : separator = ',' := by
      by_contra other
      cases noBar other
    rw [render]
    refine .joinWith "|" (.of_not_mem (by decide) (by decide)) fun text mem => ?_
    rw [renderAll_eq_map] at mem
    obtain ⟨u, inMembers, rfl⟩ := List.mem_map.1 mem
    exact ih u inMembers (.inl rfl) fun other => absurd rfl other

/-- A type is not empty, and it starts with a parenthesis if it is a function type. -/
theorem exists_head (h : Legible c t) : ∃ first rest, (t.render c).toList = first :: rest ∧
    (t.isUnion = false → (first = '(' ↔ t.isFunction = true)) := by
  have word : ∀ {s : List Char}, IsPath s → ∃ first rest, s = first :: rest ∧ first ≠ '(' := by
    intro s path
    obtain ⟨first, rest, rfl⟩ := List.exists_cons_of_ne_nil path.ne_nil
    exact ⟨first, rest, rfl, ne_of_isPathChar (path.isPathChar_of_mem _ List.mem_cons_self) rfl⟩
  induction h with
  | name isName free =>
    obtain ⟨first, rest, rfl, other⟩ := word isName.1
    rw [render, nameText_of_free free, String.toList_ofList]
    exact ⟨first, rest, rfl, fun _ => iff_of_false other Bool.false_ne_true⟩
  | array noUnion noFunction element ih =>
    obtain ⟨first, rest, split, function⟩ := ih
    rw [render, String.toList_append, split]
    refine ⟨first, rest ++ "[]".toList, rfl, fun _ => ?_⟩
    rw [function noUnion, noFunction]
    rfl
  | generic isName free each ih =>
    obtain ⟨first, rest, rfl, other⟩ := word isName.1
    rw [render, nameText_of_free free]
    simp only [String.toList_append, String.toList_ofList, List.cons_append]
    exact ⟨first, _, rfl, fun _ => iff_of_false other Bool.false_ne_true⟩
  | function marks each noUnion returns ihEach ih =>
    rw [render]
    simp only [String.toList_append]
    exact ⟨'(', _, rfl, fun _ => iff_of_true rfl rfl⟩
  | @union members several noUnion each ih =>
    obtain ⟨t, members, rfl⟩ := List.exists_cons_of_ne_nil (List.ne_nil_of_length_pos
      (Nat.lt_of_lt_of_le Nat.two_pos several))
    obtain ⟨first, rest, split, -⟩ := ih t List.mem_cons_self
    rw [render, renderAll, toList_joinWith_flatMap, split]
    exact ⟨first, _, rfl, fun noUnion => Bool.noConfusion noUnion⟩

theorem render_ne (h : Legible c t) : t.render c ≠ "" := by
  obtain ⟨first, rest, split, -⟩ := h.exists_head
  intro empty
  rw [empty] at split
  cases split

/-- What a type ends in. -/
theorem closing?_eq (h : Legible c t) (noUnion : t.isUnion = false) (noFunction : t.isFunction = false) :
    (t.render c).toList.getLast?.filter isClosing = t.closing? := by
  cases h with
  | name isName free =>
    obtain ⟨last, found, word⟩ := isName.1.last
    rw [render, nameText_of_free free, String.toList_ofList, found, Option.filter_some,
      isClosing_of_isPathChar (isPathChar_of_isWordChar word)]
    rfl
  | array _ _ element =>
    rw [render]
    simp [closing?, isClosing]
  | generic isName free each =>
    rw [render]
    simp [closing?, isClosing, List.getLast?_cons]
  | function => cases noFunction
  | union => cases noUnion

/-- A union has a bar outside of brackets. -/
theorem isUnion_eq (h : Legible c t) (h' : Legible c u) (same : t.render c = u.render c) :
    t.isUnion = u.isUnion := by
  have different : ∀ {t u : DocType}, Legible c t → Legible c u → t.render c = u.render c →
      t.isUnion = true → u.isUnion = true := by
    intro t u h h' same union
    by_contra noUnion
    rw [Bool.not_eq_true] at noUnion
    cases h with
    | name | array | generic | function => cases union
    | @union members several noUnions each =>
      match members, several with
      | t :: t' :: members, _ =>
        have one := h'.sealed (.inr rfl) fun _ => noUnion
        have first := (each t List.mem_cons_self).sealed (.inl rfl) fun other => absurd rfl other
        rw [← same, render, renderAll, renderAll, toList_joinWith_flatMap, List.flatMap_cons] at one
        have opened := one.inBrackets _ _ rfl
        rw [first.balanced] at opened
        cases opened
  rw [Bool.eq_iff_iff]
  exact ⟨different h h' same, different h' h same.symm⟩

/-- A function type starts with a parenthesis. -/
theorem isFunction_eq (h : Legible c t) (h' : Legible c u) (same : t.render c = u.render c)
    (noUnion : t.isUnion = false) : t.isFunction = u.isFunction := by
  have noUnion' : u.isUnion = false := (h.isUnion_eq h' same).symm.trans noUnion
  obtain ⟨first, rest, split, function⟩ := h.exists_head
  obtain ⟨first', rest', split', function'⟩ := h'.exists_head
  rw [same, split'] at split
  cases split
  rw [Bool.eq_iff_iff, ← function noUnion, function' noUnion']

/-! ## Reading a type -/

/-- Two trees of the same form. -/
inductive SameForm : DocType → DocType → Prop
  | name (s r : List Char) : SameForm (.name s) (.name r)
  | array (t u : DocType) : SameForm (.array t) (.array u)
  | generic (base base' : List Char) (args args' : List DocType) :
      SameForm (.generic base args) (.generic base' args')
  | function (arguments arguments' : List (TypeExpr.Argument DocType)) (t u : DocType) :
      SameForm (.function arguments (some t)) (.function arguments' (some u))
  | union (members members' : List DocType) : SameForm (.union members) (.union members')

/-- The outline of a type shows the form of the tree. -/
theorem sameForm (h : Legible c t) (h' : Legible c u) (same : t.render c = u.render c) :
    SameForm t u := by
  have bars := h.isUnion_eq h' same
  have arrows := h.isFunction_eq h' same
  have ends : t.isUnion = false → t.isFunction = false → t.closing? = u.closing? := by
    intro noUnion noFunction
    rw [← h.closing?_eq noUnion noFunction, same]
    exact h'.closing?_eq (bars.symm.trans noUnion) ((arrows noUnion).symm.trans noFunction)
  cases h with
  | name =>
    cases h' with
    | name => exact .name _ _
    | array | generic => cases ends rfl rfl
    | function => cases arrows rfl
    | union => cases bars
  | array =>
    cases h' with
    | array => exact .array _ _
    | name | generic => cases ends rfl rfl
    | function => cases arrows rfl
    | union => cases bars
  | generic =>
    cases h' with
    | generic => exact .generic _ _ _ _
    | name | array => cases ends rfl rfl
    | function => cases arrows rfl
    | union => cases bars
  | function =>
    cases h' with
    | function => exact .function _ _ _ _
    | name | array | generic => cases arrows rfl
    | union => cases bars
  | union =>
    cases h' with
    | union => exact .union _ _
    | name | array | generic | function => cases bars

/-- Lists of trees that can be told apart can be told apart. -/
theorem eq_of_renderAll {types types' : List DocType}
    (each : ∀ t ∈ types, ∀ u, Legible c u → t.render c = u.render c → t = u)
    (each' : ∀ u ∈ types', Legible c u) (same : renderAll c types = renderAll c types') :
    types = types' := by
  induction types generalizing types' with
  | nil =>
    cases types' with
    | nil => rfl
    | cons u types' => cases same
  | cons t types ih =>
    cases types' with
    | nil => cases same
    | cons u types' =>
      rw [List.forall_mem_cons] at each each'
      rw [renderAll, renderAll, List.cons.injEq] at same
      rw [each.1 u each'.1 same.1, ih each.2 each'.2 same.2]

/-- Arguments whose types can be told apart can be told apart. -/
theorem eq_of_renderArguments {arguments arguments' : List (TypeExpr.Argument DocType)}
    {afterMarked afterMarked' : Bool} {index : Nat} (marks : MarksSpread afterMarked arguments)
    (marks' : MarksSpread afterMarked' arguments')
    (legible : ∀ argument ∈ arguments, Legible c argument.type)
    (legible' : ∀ argument ∈ arguments', Legible c argument.type)
    (each : ∀ argument ∈ arguments, ∀ u, Legible c u →
      argument.type.render c = u.render c → argument.type = u)
    (same : renderArguments c index afterMarked arguments =
      renderArguments c index afterMarked' arguments') : arguments = arguments' := by
  induction marks generalizing arguments' afterMarked' index with
  | nil =>
    cases marks' with
    | nil => rfl
    | cons rest behind tail =>
      rw [renderArguments_cons rest behind (legible' _ List.mem_cons_self).admitsMissing] at same
      cases same
  | @cons afterMarked argument arguments rest behind tail ih =>
    rw [List.forall_mem_cons] at legible each
    rw [renderArguments_cons rest behind legible.1.admitsMissing] at same
    cases marks' with
    | nil => cases same
    | @cons _ argument' arguments' rest' behind' tail' =>
      rw [List.forall_mem_cons] at legible'
      rw [renderArguments_cons rest' behind' legible'.1.admitsMissing, List.cons.injEq] at same
      obtain ⟨sameOptional, sameRest, sameType⟩ := eq_of_argumentText rest rest' same.1
      have type := each.1 argument'.type legible'.1 sameType
      have head : argument = argument' := by
        cases argument
        cases argument'
        cases sameOptional
        cases sameRest
        cases type
        rfl
      rw [head, ih tail' legible.2 legible'.2 each.2 same.2]

theorem filled_renderAll {types : List DocType} (legible : ∀ t ∈ types, Legible c t)
    (isSeparator : separator = ',' ∨ separator = '|')
    (noBar : separator ≠ ',' → ∀ t ∈ types, t.isUnion = false) :
    ∀ text ∈ renderAll c types, text ≠ "" ∧ Sealed separator text.toList := by
  intro text mem
  rw [renderAll_eq_map] at mem
  obtain ⟨t, inside, rfl⟩ := List.mem_map.1 mem
  refine ⟨(legible t inside).render_ne, (legible t inside).sealed isSeparator fun other => ?_⟩
  exact noBar other t inside

theorem filled_renderArguments {arguments : List (TypeExpr.Argument DocType)}
    (marks : MarksSpread false arguments)
    (legible : ∀ argument ∈ arguments, Legible c argument.type) :
    ∀ text ∈ renderArguments c 0 false arguments, text ≠ "" ∧ Sealed ',' text.toList := by
  refine sealed_renderArguments marks legible (fun argument mem => ?_) 0
  exact (legible argument mem).sealed (.inl rfl) fun other => absurd rfl other

/-- **Legible trees with the same type are the same.** -/
theorem eq_of_render (h : Legible c t) (h' : Legible c u) (same : t.render c = u.render c) :
    t = u := by
  induction h generalizing u with
  | name isName free =>
    cases (Legible.name isName free).sameForm h' same with
    | name s r =>
      cases h' with
      | name isName' free' =>
        rw [render, render, nameText_of_free free, nameText_of_free free', String.ofList_inj] at same
        rw [same]
  | array noUnion noFunction element ih =>
    cases (Legible.array noUnion noFunction element).sameForm h' same with
    | array t u =>
      cases h' with
      | array noUnion' noFunction' element' =>
        rw [render, render, ← String.toList_inj, String.toList_append, String.toList_append,
          List.append_cancel_right_eq, String.toList_inj] at same
        rw [ih element' same]
  | generic isName free each ih =>
    cases (Legible.generic isName free each).sameForm h' same with
    | generic base base' args args' =>
      cases h' with
      | generic isName' free' each' =>
        have chars := congrArg String.toList same
        rw [render, render, nameText_of_free free, nameText_of_free free'] at chars
        simp only [String.toList_append, String.toList_ofList, List.append_assoc] at chars
        -- The base ends in front of the first angle bracket.
        have next : ∀ rest : List Char, ∀ c ∈ ("<".toList ++ rest).head?, c = '<' :=
          fun rest c first => (Option.some.inj first).symm
        obtain rfl := (sealed_of_isPath isName.1 rfl).eq_of_append (sealed_of_isPath isName'.1 rfl)
          (next _) (next _) chars
        rw [List.append_cancel_left_eq, List.append_cancel_left_eq, List.append_cancel_right_eq,
          String.toList_inj] at chars
        have types := eq_of_joinWith rfl
          (filled_renderAll each (.inl rfl) fun other => absurd rfl other)
          (filled_renderAll each' (.inl rfl) fun other => absurd rfl other) chars
        rw [eq_of_renderAll (fun t mem u => ih t mem) each' types]
  | function marks each noUnion returns ihEach ih =>
    cases (Legible.function marks each noUnion returns).sameForm h' same with
    | function arguments arguments' t u =>
      cases h' with
      | function marks' each' noUnion' returns' =>
        have filled := filled_renderArguments marks each
        have filled' := filled_renderArguments marks' each'
        have inside := Whole.joinWith ", " (by decide) fun text mem => (filled text mem).2.toWhole
        have inside' := Whole.joinWith ", " (by decide) fun text mem => (filled' text mem).2.toWhole
        have chars := congrArg String.toList same
        rw [render, render, renderReturns, renderReturns] at chars
        simp only [String.toList_append, List.append_assoc] at chars
        -- The arguments end in front of the parenthesis that closes the first one.
        obtain ⟨texts, types⟩ := eq_of_isBalanced inside.balanced inside'.balanced
          (List.append_cancel_left chars)
        have type := String.toList_inj.1 (List.append_cancel_left types)
        have texts := eq_of_joinWith rfl filled filled' (String.toList_inj.1 texts)
        rw [ih returns' type,
          eq_of_renderArguments marks marks' each each' (fun argument mem u => ihEach argument mem) texts]
  | union several noUnion each ih =>
    cases (Legible.union several noUnion each).sameForm h' same with
    | union members members' =>
      cases h' with
      | union several' noUnion' each' =>
        rw [render, render] at same
        have types := eq_of_joinWith rfl (filled_renderAll each (.inr rfl) fun _ => noUnion)
          (filled_renderAll each' (.inr rfl) fun _ => noUnion') same
        rw [eq_of_renderAll (fun t mem u => ih t mem) each' types]

end Legible

/-! ## Illegible trees -/

/-- Different trees with spellings of the same type. -/
def Conflated (t u : DocType) : Prop :=
  t ≠ u ∧ ∃ s r, t.Spells s ∧ u.Spells r ∧
    (({} : Config).typeText (String.ofList s)).text = (({} : Config).typeText (String.ofList r)).text

theorem Conflated.of_render {s r : List Char} (distinct : t ≠ u) (spelled : t.Spells s)
    (spelled' : u.Spells r) (same : t.render {} = u.render {}) : Conflated t u := by
  have names : ∀ key ∈ ({} : Config).typeReplacements.keys, IsPath key.toList :=
    names_of_noKeys rfl
  refine ⟨distinct, s, r, spelled, spelled', ?_⟩
  rw [Config.text_typeText, Config.text_typeText, String.toList_ofList, String.toList_ofList,
    translation_eq_render names spelled.unmarked, same,
    translation_eq_render names spelled'.unmarked]

/-- The brackets of an array of a union are the brackets of the last member. -/
theorem render_array_union (c : Config) (members : List DocType) (last : DocType) :
    (DocType.array (.union (members ++ [last]))).render c =
      (DocType.union (members ++ [.array last])).render c := by
  rw [render, render, render, renderAll_eq_map, renderAll_eq_map, List.map_append, List.map_append]
  induction members with
  | nil => rfl
  | cons member members ih =>
    rw [List.map_cons, List.cons_append, List.cons_append, Text.joinWith_cons _ _ (by simp),
      Text.joinWith_cons _ _ (by simp), String.append_assoc, ih]

/-- The brackets of an array of functions are the brackets of the return type. -/
theorem render_array_function (c : Config) (arguments : List (TypeExpr.Argument DocType))
    (returns : DocType) :
    (DocType.array (.function arguments (some returns))).render c =
      (DocType.function arguments (some (.array returns))).render c := by
  rw [render, render, render, renderReturns, renderReturns, render, String.append_assoc]

theorem isName_letter {letter : Char} (identifier : IsAsciiIdentifier [letter]) : IsName [letter] := by
  refine ⟨.single identifier, fun same => ?_⟩
  cases congrArg List.length same

end DocType

namespace Config

open TypeExpr DocType

/-- **Different legible trees are translated to different types,** however they are spelled, if the
configuration replaces no types. -/
theorem typeText_ne (c : Config) (noKeys : c.typeReplacements.keys = []) {t u : DocType}
    {s r : List Char} (spelled : t.Spells s) (spelled' : u.Spells r) (legible : t.Legible c)
    (legible' : u.Legible c) (distinct : t ≠ u) :
    (c.typeText (String.ofList s)).text ≠ (c.typeText (String.ofList r)).text := by
  have names := names_of_noKeys noKeys
  rw [text_typeText, text_typeText, String.toList_ofList, String.toList_ofList,
    translation_eq_render names spelled.unmarked, translation_eq_render names spelled'.unmarked]
  exact fun same => distinct (legible.eq_of_render legible' same)

/-- A rest argument and an array, and a union and two arguments. -/
theorem typeText_ne_rest :
    (({} : Config).typeText "function(...A): G.<A|B>").text ≠
      (({} : Config).typeText "function(Array.<A>): G.<A, B>").text := by
  have A : IsName ['A'] := isName_letter ⟨by decide, by decide⟩
  have B : IsName ['B'] := isName_letter ⟨by decide, by decide⟩
  have G : IsName ['G'] := isName_letter ⟨by decide, by decide⟩
  have a : Legible {} (.name ['A']) := .name A rfl
  have b : Legible {} (.name ['B']) := .name B rfl
  have union : Legible {} (.union [.name ['A'], .name ['B']]) :=
    .union (by decide) (by decide) (by simp [a, b])
  have spelledUnion : Spells (.union [.name ['A'], .name ['B']]) ['A', '|', 'B'] :=
    .union (by decide) (by decide) (.cons (.name A) (.cons (.name B) .nil))
      (.cons ['A'] 0 0 (.single ['B']))
  have spelled : Spells _ "function(...A): G.<A|B>".toList :=
    .function 0 1 (.cons (@SpellsArgument.mk ⟨.name ['A'], false, true⟩ _ (.name A)) .nil)
      (.joined (.single "...A".toList)) rfl
      (.generic true G (by decide) (.cons spelledUnion .nil) (.single ['A', '|', 'B']))
  have spelled' : Spells _ "function(Array.<A>): G.<A, B>".toList :=
    .function 0 1 (.cons (@SpellsArgument.mk ⟨.array (.name ['A']), false, false⟩ _
        (.array true (.name A))) .nil)
      (.joined (.single "Array.<A>".toList)) rfl
      (.generic true G (by decide) (.cons (.name A) (.cons (.name B) .nil))
        (.cons ['A'] 0 1 (.single ['B'])))
  refine typeText_ne {} rfl spelled spelled' ?_ ?_ (fun same => nomatch same)
  · exact .function (.cons (fun _ => rfl) (fun marked => nomatch marked) .nil) (by simp [a]) rfl
      (.generic G rfl (by simp [union]))
  · exact .function (.cons (fun _ => rfl) (fun marked => nomatch marked) .nil)
      (by simp [Legible.array rfl rfl a]) rfl (.generic G rfl (by simp [a, b]))

/-- What becomes of the other trees: the brackets of an array of unions or of functions go to the last
member or to the return type, marks spread to the arguments behind them and are not seen on rest
arguments, all spellings of `array` are one, the arguments of `Array` stay one text, and the text of a
union that starts with a function type is the text of a function type that returns a union. -/
theorem typeText_conflates :
    (Conflated (.array (.union [.name ['A'], .name ['B']]))
        (.union [.name ['A'], .array (.name ['B'])]) ∧
      Conflated (.array (.function [] (some (.name ['A']))))
        (.function [] (some (.array (.name ['A']))))) ∧
    (Conflated
        (.function [⟨.name ['A'], true, false⟩, ⟨.name ['A'], false, false⟩] (some (.name ['B'])))
        (.function [⟨.name ['A'], true, false⟩, ⟨.name ['A'], true, false⟩] (some (.name ['B']))) ∧
      Conflated (.function [⟨.name ['A'], false, true⟩] (some (.name ['B'])))
        (.function [⟨.name ['A'], true, true⟩] (some (.name ['B'])))) ∧
    ((({} : Config).typeText "array").text = (({} : Config).typeText "Array").text ∧
      (({} : Config).typeText "array.<A>").text = (({} : Config).typeText "ARRAY.<A>").text ∧
      (({} : Config).typeText "G.<Array.<A, B>>").text =
        (({} : Config).typeText "G.<A, Array.<B>>").text) ∧
    Spells (.union [.function [] (some (.name ['A'])), .name ['B']]) "function(): A|B".toList ∧
      Signature.read? "function(): A|B".toList = some ⟨[], some "A|B".toList⟩ := by
  have A : IsName ['A'] := isName_letter ⟨by decide, by decide⟩
  have B : IsName ['B'] := isName_letter ⟨by decide, by decide⟩
  have call : Spells (.function [] (some (.name ['A']))) "function(): A".toList :=
    .function 0 1 .nil .nil rfl (.name A)
  have untyped : ∀ word ∈ ["array".toList, "Array".toList, "ARRAY".toList],
      ({} : Config).translation word = "any[]" := by
    simp only [List.forall_mem_cons, List.not_mem_nil, false_implies, implies_true, and_true]
    exact ⟨translation_untypedArray (by decide) (by decide) rfl,
      translation_untypedArray (by decide) (by decide) rfl,
      translation_untypedArray (by decide) (by decide) rfl⟩
  refine ⟨⟨?_, ?_⟩, ⟨?_, ?_⟩, ⟨?_, ?_, ?_⟩, ?_, rfl⟩
  · have union : Spells (.union [.name ['A'], .name ['B']]) ['A', '|', 'B'] :=
      .union (by decide) (by decide) (.cons (.name A) (.cons (.name B) .nil))
        (.cons ['A'] 0 0 (.single ['B']))
    have union' : Spells (.union [.name ['A'], .array (.name ['B'])]) "A|Array.<B>".toList :=
      .union (by decide) (by decide) (.cons (.name A) (.cons (.array true (.name B)) .nil))
        (.cons ['A'] 0 0 (.single "Array.<B>".toList))
    exact .of_render (fun same => nomatch same) (.array true union) union'
      (render_array_union {} [.name ['A']] (.name ['B']))
  · have array : Spells (.function [] (some (.array (.name ['A'])))) "function(): Array.<A>".toList :=
      .function 0 1 .nil .nil rfl (.array true (.name A))
    exact .of_render (fun same => nomatch same) (.array true call) array
      (render_array_function {} [] _)
  · have marked := @SpellsArgument.mk ⟨.name ['A'], true, false⟩ ['A'] (.name A)
    have unmarked := @SpellsArgument.mk ⟨.name ['A'], false, false⟩ ['A'] (.name A)
    exact .of_render (fun same => by cases same)
      (.function 0 1 (.cons marked (.cons unmarked .nil))
        (.joined (.cons "A=".toList 0 1 (.single "A".toList))) rfl (.name B))
      (.function 0 1 (.cons marked (.cons marked .nil))
        (.joined (.cons "A=".toList 0 1 (.single "A=".toList))) rfl (.name B)) rfl
  · have marked := @SpellsArgument.mk ⟨.name ['A'], true, true⟩ ['A'] (.name A)
    have unmarked := @SpellsArgument.mk ⟨.name ['A'], false, true⟩ ['A'] (.name A)
    exact .of_render (fun same => by cases same)
      (.function 0 1 (.cons unmarked .nil) (.joined (.single "...A".toList)) rfl (.name B))
      (.function 0 1 (.cons marked .nil) (.joined (.single "...A=".toList)) rfl (.name B)) rfl
  · rw [text_typeText, text_typeText, untyped "array".toList (by simp),
      untyped "Array".toList (by simp)]
  · have form : Form.of "array.<A>".toList = .generic "array".toList [['A']] := rfl
    have form' : Form.of "ARRAY.<A>".toList = .generic "ARRAY".toList [['A']] := rfl
    rw [text_typeText, text_typeText, translation_generic (by decide) (by decide) form,
      translation_generic (by decide) (by decide) form', untyped "array".toList (by simp),
      untyped "ARRAY".toList (by simp)]
  · have form : Form.of "G.<Array.<A, B>>".toList = .generic ['G'] ["Array.<A, B>".toList] := rfl
    have form' : Form.of "G.<A, Array.<B>>".toList = .generic ['G'] [['A'], "Array.<B>".toList] := rfl
    have several : Form.of "Array.<A, B>".toList = .array "A, B".toList := rfl
    have single : Form.of "Array.<B>".toList = .array ['B'] := rfl
    have a : ({} : Config).translation ['A'] = "A" := translation_named (by decide) (by decide) rfl
    have b : ({} : Config).translation ['B'] = "B" := translation_named (by decide) (by decide) rfl
    have both : ({} : Config).translation "A, B".toList = "A, B" :=
      translation_named (by decide) (by decide) rfl
    rw [text_typeText, text_typeText, translation_generic (by decide) (by decide) form,
      translation_generic (by decide) (by decide) form', List.map_singleton, List.map_cons,
      List.map_singleton, translation_array (by decide) (by decide) several,
      translation_array (by decide) (by decide) single, a, b, both]
    rfl
  · exact .union (by decide) (by decide) (.cons call (.cons (.name B) .nil))
      (.cons "function(): A".toList 0 0 (.single ['B']))

end Config

end Ambient
