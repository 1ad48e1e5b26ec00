import Ambient.Proofs.FunctionTypedef.Expansion
import Ambient.Proofs.TypeExpr.Cuts
/-!
# The two readers of function types

A function type that stands inside of a type expression is read by following its brackets; the
annotation of a typedef is cut at the last parenthesis that a return type follows. What the second
reader recovers is always what the first one reads. But it does not recover all of it: a return type
with a parenthesis in it that a further return type follows draws the cut to itself, and the typedef
is then reported as one whose signature is unknown.

## Main definitions

* `FunctionTypedef.HasReturn`: a return type stands behind a colon.
* `FunctionTypedef.MentionsReturn`: a parenthesis in a text has a return type behind it.
* `FunctionTypedef.IsParenthesized`: the arguments of a function type stand in parentheses.
* `FunctionTypedef.StandsFor`: a parameter by position for an argument.
* `FunctionTypedef.returnParams`: the return values made of a return type.

## Main statements

* `FunctionTypedef.readSignature?_eq_some`: what is recovered is made of what is read.
* `FunctionTypedef.readSignature?_agrees`: parameter by parameter, and for the return value.
* `FunctionTypedef.readSignature?_isSome_iff`: which function types are recovered.
* `FunctionTypedef.nested_return_unmatched`: one that is not.
-/

namespace Ambient.FunctionTypedef

open TypeExpr

variable {s t text tail inside type : List Char} {type? : Option (List Char)}

/-! ## Return types -/

/-- A return type stands behind a colon; there may be blanks around the colon. -/
def HasReturn (text type : List Char) : Prop :=
  ∃ before after, (∀ c ∈ before, Text.isBlank c = true) ∧ (∀ c ∈ after, Text.isBlank c = true) ∧
    text = before ++ ':' :: (after ++ type) ∧ ∃ c, type.head? = some c ∧ Text.isBlank c = false

theorem hasReturn_iff : HasReturn text type ↔
    ∃ rest, Text.trimStart text = ':' :: rest ∧ Text.trimStart rest = type ∧ type ≠ [] := by
  constructor
  · rintro ⟨before, after, blank, blank', rfl, c, first, solid⟩
    refine ⟨after ++ type, ?_, ?_, ?_⟩
    · rw [Text.trimStart_append blank, Text.trimStart_eq_self rfl rfl]
    · rw [Text.trimStart_append blank', Text.trimStart_eq_self first solid]
    · rintro rfl
      cases first
  · rintro ⟨rest, colon, rfl, filled⟩
    obtain ⟨before, blank, front⟩ := Text.exists_blanks_trimStart text
    obtain ⟨after, blank', front'⟩ := Text.exists_blanks_trimStart rest
    obtain ⟨c, more, bare⟩ := List.exists_cons_of_ne_nil filled
    refine ⟨before, after, blank, blank', by rw [← front', ← colon, ← front], c, ?_,
      Text.isBlank_of_trimStart bare⟩
    rw [bare]
    rfl

/-- The reader of annotations takes the return types that stand on one line. -/
theorem returnText?_eq_some_iff :
    returnText? text = some type ↔ HasReturn text type ∧ '\n' ∉ type := by
  rw [hasReturn_iff]
  unfold returnText?
  split
  · rename_i rest colon
    simp only [Option.ite_none_left_eq_some, Option.some.injEq, Bool.or_eq_true, not_or,
      List.isEmpty_iff, List.contains_iff_mem, colon, List.cons.injEq, true_and]
    constructor
    · rintro ⟨⟨filled, oneLine⟩, rfl⟩
      exact ⟨⟨rest, rfl, rfl, filled⟩, oneLine⟩
    · rintro ⟨⟨rest', rfl, rfl, filled⟩, oneLine⟩
      exact ⟨⟨filled, oneLine⟩, rfl⟩
  · rename_i noColon
    simp only [reduceCtorEq, false_iff, not_and]
    rintro ⟨rest, colon, -⟩
    exact absurd colon (noColon rest)

/-- The reader of type expressions takes all of them. -/
theorem readReturns?_eq_some_iff (solid : Text.EndsSolid text) :
    readReturns? text = some (some type) ↔ HasReturn text type := by
  rw [hasReturn_iff]
  have bare := solid.trim_eq
  have ending : ∀ c rest, Text.trimStart text = c :: rest →
      Text.trim rest = Text.trimStart rest := by
    intro c rest front
    obtain ⟨blanks, -, whole⟩ := Text.exists_blanks_trimStart text
    rw [front] at whole
    rw [whole] at solid
    exact solid.of_append.of_cons.trim_eq
  unfold readReturns?
  rw [bare]
  split
  · rename_i none
    simp [none]
  · rename_i c rest front
    rw [ending c rest front]
    simp only [front, List.cons.injEq]
    by_cases colon : c = ':'
    · rw [if_neg (Decidable.not_not.2 colon)]
      constructor
      · intro found
        split at found
        · cases found
        · rename_i filled
          cases found
          exact ⟨rest, ⟨colon, rfl⟩, rfl, filled⟩
      · rintro ⟨rest', ⟨-, rfl⟩, rfl, filled⟩
        split
        · rename_i none
          exact absurd none filled
        · rfl
    · rw [if_pos colon]
      constructor
      · intro found
        cases found
      · rintro ⟨rest', ⟨colon', -⟩, -⟩
        exact absurd colon' colon

/-- A return type has no blanks around it. -/
theorem HasReturn.trim_eq (solid : Text.EndsSolid text) (h : HasReturn text type) :
    Text.trim type = type := by
  obtain ⟨before, after, -, -, rfl, c, first, solid'⟩ := h
  rw [(solid.of_append.of_cons.of_append).trim_eq, Text.trimStart_eq_self first solid']

/-- Without a return type nothing stands behind the parentheses. -/
theorem readReturns?_eq_some_none (solid : Text.EndsSolid text)
    (found : readReturns? text = some none) : text = [] := by
  unfold readReturns? at found
  rw [solid.trim_eq] at found
  split at found
  · rename_i bare
    obtain ⟨blanks, blank, whole⟩ := Text.exists_blanks_trimStart text
    rw [bare, List.append_nil] at whole
    exact solid.eq_nil_of_isBlank fun c mem => blank c (whole ▸ mem)
  · split at found
    · cases found
    · split at found
      · cases found
      · cases found

/-- What the reader of annotations takes behind the arguments, the other one takes, too. -/
theorem CutsReturn.readReturns?_eq (solid : Text.EndsSolid tail) (h : CutsReturn tail type?) :
    readReturns? tail = some type? := by
  cases h with
  | nothing => rfl
  | type found => exact (readReturns?_eq_some_iff solid).2 (returnText?_eq_some_iff.1 found).1

/-! ## Further return types -/

/-- A parenthesis in a text has a return type behind it. -/
def MentionsReturn (text : List Char) : Prop :=
  ∃ before after type, text = before ++ ')' :: after ∧ HasReturn after type

namespace MentionsReturn

theorem append (before : List Char) (h : MentionsReturn s) : MentionsReturn (before ++ s) := by
  obtain ⟨front, after, type, rfl, returns⟩ := h
  exact ⟨before ++ front, after, type, (List.append_assoc _ _ _).symm, returns⟩

/-- Such a parenthesis does not stand in front of all parentheses. -/
theorem of_append (noClose : ')' ∉ s) (h : MentionsReturn (s ++ t)) : MentionsReturn t := by
  obtain ⟨before, after, type, same, returns⟩ := h
  rcases List.append_eq_append_iff.1 same with ⟨more, -, behind⟩ | ⟨more, front, behind⟩
  · exact ⟨more, after, type, behind, returns⟩
  · cases more with
    | nil => exact ⟨[], after, type, behind.symm, returns⟩
    | cons c more =>
      cases behind
      exact absurd (by simp [front]) noClose

end MentionsReturn

/-- A text on one line is cut if a return type stands behind one of its parentheses. -/
theorem cutReturn?_eq_none_iff (oneLine : '\n' ∉ text) :
    cutReturn? text = none ↔ ¬ MentionsReturn text := by
  constructor
  · rintro uncut ⟨before, after, type, rfl, returns⟩
    have oneLine' : '\n' ∉ type := by
      obtain ⟨_, _, -, -, rfl, -⟩ := returns
      intro mem
      exact oneLine (by simp [mem])
    have found := returnText?_eq_some_iff.2 ⟨returns, oneLine'⟩
    -- The parenthesis is cut at, unless there is one behind it.
    induction before with
    | nil =>
      rw [List.nil_append, cutReturn?_cons (by decide)] at uncut
      split at uncut
      · cases uncut
      · rw [if_pos rfl, found] at uncut
        cases uncut
    | cons c before ih =>
      rw [List.cons_append, List.mem_cons, not_or] at oneLine
      rw [List.cons_append, cutReturn?_cons (Ne.symm oneLine.1)] at uncut
      split at uncut
      · cases uncut
      · rename_i uncut'
        exact ih oneLine.2 uncut'
  · intro unmentioned
    cases cut : cutReturn? text with
    | none => rfl
    | some parts =>
      obtain ⟨after, whole, -, returns, -⟩ := cutReturn?_eq_some_iff.1 cut
      exact absurd ⟨_, after, _, whole, (returnText?_eq_some_iff.1 returns).1⟩ unmentioned

/-! ## What is recovered -/

/-- What stands behind the arguments ends like the whole. -/
theorem endsSolid_tail {blanks : List Char} {k : Char}
    (solid : Text.EndsSolid ("function".toList ++ (blanks ++ '(' :: (inside ++ k :: tail)))) :
    Text.EndsSolid tail :=
  solid.of_append.of_append.of_cons.of_append.of_cons

/-- **If the annotation is cut, the arguments and the return type are those that are read.** -/
theorem read?_of_cutSignature? {source args : List Char} (solid : Text.EndsSolid source)
    (cut : cutSignature? source = some (args, type?)) :
    Signature.read? source = some ⟨readArguments args, type?⟩ := by
  obtain ⟨blanks, tail, blank, rfl, balanced, -, returns⟩ := cutSignature?_eq_some_iff.1 cut
  rw [Signature.read?_call blank balanced (role_parenthesis _),
    returns.readReturns?_eq (endsSolid_tail solid), Option.map_some]

/-- The return values of an expanded typedef. -/
def returnParams : Option (List Char) → List Param
  | some type => [Param.typed ((splitOutside '|' (Text.trim type)).map String.ofList)]
  | none => []

/-- **What is recovered is made of what is read.** -/
theorem readSignature?_eq_some {s : String} {recovered : Recovered}
    (found : readSignature? s = some recovered) :
    ∃ signature, Signature.read? (Text.trim s.toList) = some signature ∧
      recovered = ⟨paramsFrom 0 signature.arguments, returnParams signature.returns⟩ := by
  unfold readSignature? at found
  simp only [Option.bind_eq_bind, Option.bind_eq_some_iff] at found
  obtain ⟨⟨args, type?⟩, cut, same⟩ := found
  refine ⟨_, read?_of_cutSignature? (Text.endsSolid_trim _) cut, ?_⟩
  cases same
  rfl

/-- A parameter for the argument at a position: it is named by the position, has the same marks, and
its alternatives are those of the argument, each without its mark of optionality. -/
structure StandsFor (position : Nat) (argument : TypeExpr.Argument (List Char)) (p : Param) :
    Prop where
  name : p.name = some ("arg" ++ toString position)
  isOptional : p.isOptional = argument.isOptional
  isRest : p.isRest = argument.isRest
  type : p.type = some ⟨(splitOutside '|' argument.type).map fun piece =>
    String.ofList (withoutOptionalMark piece).1⟩

theorem length_paramsFrom (index : Nat) (arguments : List (TypeExpr.Argument (List Char))) :
    (paramsFrom index arguments).length = arguments.length := by
  induction arguments generalizing index with
  | nil => rfl
  | cons argument rest ih => rw [paramsFrom, List.length_cons, List.length_cons, ih]

theorem standsFor_paramsFrom (index : Nat) {i : Nat}
    {arguments : List (TypeExpr.Argument (List Char))} {argument : TypeExpr.Argument (List Char)} (at' : arguments[i]? = some argument) :
    ∃ p, (paramsFrom index arguments)[i]? = some p ∧ StandsFor (index + i) argument p := by
  induction arguments generalizing index i with
  | nil => cases at'
  | cons first rest ih =>
    rw [paramsFrom]
    cases i with
    | zero =>
      cases at'
      refine ⟨_, rfl, rfl, ?_, ?_, rfl⟩
      · cases mark : argument.isOptional <;> simp [Param.isOptional]
      · cases mark : argument.isRest <;> simp [Param.isRest]
    | succ i =>
      rw [List.getElem?_cons_succ] at at' ⊢
      obtain ⟨p, there, stands⟩ := ih (index + 1) at'
      rw [Nat.add_right_comm] at stands
      exact ⟨p, there, stands⟩

/-- **The recovered signature is the one that is read.** If a signature is recovered from a text,
the text is read as a function type with as many arguments. The parameters stand for them one by
one; a return value is there if and only if the function type names a return type, and its
alternatives are those of that type. -/
theorem readSignature?_agrees {s : String} {recovered : Recovered}
    (found : readSignature? s = some recovered) :
    ∃ signature, Signature.read? (Text.trim s.toList) = some signature ∧
      recovered.params.length = signature.arguments.length ∧
      (∀ i argument, signature.arguments[i]? = some argument →
        ∃ p, recovered.params[i]? = some p ∧ StandsFor i argument p) ∧
      (recovered.returns = [] ↔ signature.returns = none) ∧
      ∀ type, signature.returns = some type →
        ∃ entry, recovered.returns = [entry] ∧
          entry.alternatives = (splitOutside '|' type).map String.ofList := by
  obtain ⟨signature, read, rfl⟩ := readSignature?_eq_some found
  refine ⟨signature, read, length_paramsFrom 0 _, ?_, ?_, ?_⟩
  · intro i argument at'
    have stands := standsFor_paramsFrom 0 at'
    rwa [Nat.zero_add] at stands
  · cases signature.returns with
    | none => simp [returnParams]
    | some type => simp [returnParams]
  · intro type returns
    obtain ⟨blanks, inside, k, after, -, whole, -, -, -, behind⟩ := Signature.read?_eq_some read
    have solid := Text.endsSolid_trim s.toList
    rw [whole] at solid
    rw [returns] at behind
    have solid' := endsSolid_tail solid
    have bare := ((readReturns?_eq_some_iff solid').1 behind).trim_eq solid'
    rw [returns]
    exact ⟨_, rfl, by rw [bare]; rfl⟩

/-- A binding in front, marks of optionality on an alternative and on the whole, and a union. -/
theorem readSignature?_agrees_callback :
    let text := "function(this: T, A|?B=, ...C): D|E"
    ∃ recovered first second entry, readSignature? text = some recovered ∧
      recovered.params.length = 2 ∧ recovered.params[0]? = some first ∧
      recovered.params[1]? = some second ∧ recovered.returns = [entry] ∧
      first.name = some "arg0" ∧ first.isOptional = true ∧ first.type = some ⟨["A", "B"]⟩ ∧
      second.name = some "arg1" ∧ second.isRest = true ∧ entry.alternatives = ["D", "E"] := by
  intro text
  have read : Signature.read? (Text.trim text.toList) = some ⟨[⟨"A|?B".toList, true, false⟩,
      ⟨['C'], false, true⟩], some "D|E".toList⟩ := by decide
  have accepted : (readSignature? text).isSome = true := by decide
  obtain ⟨recovered, found⟩ := Option.isSome_iff_exists.1 accepted
  obtain ⟨signature, read', length, params, -, returns⟩ := readSignature?_agrees found
  cases read.symm.trans read'
  obtain ⟨first, at', stands⟩ := params 0 _ rfl
  obtain ⟨second, at'', stands'⟩ := params 1 _ rfl
  obtain ⟨entry, only, alternatives⟩ := returns _ rfl
  refine ⟨recovered, first, second, entry, found, length, at', at'', only, ?_, stands.isOptional, ?_,
    ?_, stands'.isRest, ?_⟩
  · rw [stands.name]
    rfl
  · rw [stands.type]
    decide
  · rw [stands'.name]
    rfl
  · rw [alternatives]
    decide

/-! ## Which function types are recovered -/

/-- The arguments of a function type stand in parentheses: its text is the word `function`, a
parenthesis, balanced arguments, the closing parenthesis and what stands behind it. -/
def IsParenthesized (text : List Char) : Prop :=
  ∃ blanks inside tail, (∀ c ∈ blanks, Text.isBlank c = true) ∧ isBalanced inside = true ∧
    text = "function".toList ++ (blanks ++ '(' :: (inside ++ ')' :: tail))

/-- A text behind the arguments that is read on one line is cut alike, unless a further return type
is mentioned in the return type. -/
theorem cutsReturn_iff (solid : Text.EndsSolid tail) (oneLine : '\n' ∉ tail)
    (read : readReturns? tail = some type?) :
    CutsReturn tail type? ↔ ∀ type ∈ type?, ¬ MentionsReturn type := by
  cases type? with
  | none =>
    rw [readReturns?_eq_some_none solid read]
    exact ⟨fun _ type mem => (nomatch mem), fun _ => .nothing⟩
  | some type =>
    have returns := (readReturns?_eq_some_iff solid).1 read
    have mentions : MentionsReturn tail ↔ MentionsReturn type := by
      obtain ⟨before, after, blank, blank', rfl, -⟩ := returns
      have front : before ++ ':' :: (after ++ type) = (before ++ ':' :: after) ++ type := by simp
      rw [front]
      refine ⟨.of_append ?_, .append _⟩
      intro mem
      rcases List.mem_append.1 mem with mem | mem
      · exact absurd (blank _ mem) (by decide)
      · exact absurd (blank' _ (by simpa using mem)) (by decide)
    have found : returnText? tail = some type := by
      refine returnText?_eq_some_iff.2 ⟨returns, fun mem => oneLine ?_⟩
      obtain ⟨_, _, -, -, rfl, -⟩ := returns
      simp [mem]
    have uncut := cutReturn?_eq_none_iff oneLine
    rw [mentions] at uncut
    constructor
    · intro cuts type' mem
      cases mem
      cases cuts with
      | type _ last => exact uncut.1 last
    · intro unmentioned
      exact .type found (uncut.2 (unmentioned type rfl))

theorem isSome_readSignature? (s : String) :
    (readSignature? s).isSome = (cutSignature? (Text.trim s.toList)).isSome := by
  unfold readSignature?
  cases cutSignature? (Text.trim s.toList) <;> rfl

/-- The annotations on one line that are cut, among those that are read as function types. -/
theorem isSome_cutSignature?_iff {source : List Char} (solid : Text.EndsSolid source)
    (oneLine : '\n' ∉ source) {signature : Signature (List Char)}
    (read : Signature.read? source = some signature) :
    (cutSignature? source).isSome = true ↔
      IsParenthesized source ∧ ∀ type ∈ signature.returns, ¬ MentionsReturn type := by
  rw [Option.isSome_iff_exists]
  constructor
  · rintro ⟨⟨args, type?⟩, cut⟩
    have same := read.symm.trans (read?_of_cutSignature? solid cut)
    cases same
    obtain ⟨blanks, tail, blank, rfl, balanced, -, returns⟩ := cutSignature?_eq_some_iff.1 cut
    have solid' := endsSolid_tail solid
    have behind : '\n' ∉ tail := fun mem => oneLine (by simp [mem])
    exact ⟨⟨blanks, args, tail, blank, balanced, rfl⟩,
      (cutsReturn_iff solid' behind (returns.readReturns?_eq solid')).1 returns⟩
  · rintro ⟨⟨blanks, inside, tail, blank, balanced, rfl⟩, unmentioned⟩
    have behind : '\n' ∉ tail := fun mem => oneLine (by simp [mem])
    have inFront : '\n' ∉ inside := fun mem => oneLine (by simp [mem])
    rw [Signature.read?_call blank balanced (role_parenthesis _), Option.map_eq_some_iff] at read
    obtain ⟨type?, readReturns, rfl⟩ := read
    have returns := (cutsReturn_iff (endsSolid_tail solid) behind readReturns).2 unmentioned
    exact ⟨(inside, type?),
      cutSignature?_eq_some_iff.2 ⟨blanks, tail, blank, rfl, balanced, inFront, returns⟩⟩

/-- **Which function types are recovered.** Of the texts on one line that are read as function
types, a signature is recovered from those with parentheses around the arguments whose return type
does not mention a further return type behind a parenthesis. A typedef of another one is
reported. -/
theorem readSignature?_isSome_iff {s : String} (oneLine : '\n' ∉ s.toList)
    {signature : Signature (List Char)}
    (read : Signature.read? (Text.trim s.toList) = some signature) :
    ((readSignature? s).isSome = true ↔ IsParenthesized (Text.trim s.toList) ∧
      ∀ type ∈ signature.returns, ¬ MentionsReturn type) ∧
    ∀ d, isFunctionShaped d = true → isMarked d = false → source d = s →
      ((expand d).2 = [] ↔ (readSignature? s).isSome = true) := by
  have oneLine' : '\n' ∉ Text.trim s.toList := by
    obtain ⟨before, after, -, -, whole⟩ := Text.exists_blanks_trim s.toList
    rw [whole] at oneLine
    intro mem
    exact oneLine (by simp [mem])
  have named : s ≠ "function" := by
    rintro rfl
    cases read
  constructor
  · rw [isSome_readSignature?]
    exact isSome_cutSignature?_iff (Text.endsSolid_trim _) oneLine' read
  · rintro d shaped unmarked rfl
    exact findings_expand_eq_nil_iff shaped unmarked named

/-- A function among the arguments, and one in a record that is returned. -/
theorem nested_arguments_recovered :
    let text := "function(function(A): B, C=): \x7bd: function(D)\x7d"
    (readSignature? text).isSome = true ∧ (expand (typedefOfText text)).2 = [] := by
  intro text
  have read : Signature.read? (Text.trim text.toList) =
      some ⟨[⟨"function(A): B".toList, false, false⟩, ⟨['C'], true, false⟩],
        some "\x7bd: function(D)\x7d".toList⟩ := by decide
  have whole : Text.trim text.toList = "function".toList ++ ([] ++ '(' ::
      ("function(A): B, C=".toList ++ ')' :: ": \x7bd: function(D)\x7d".toList)) := by decide
  obtain ⟨recovers, reports⟩ := readSignature?_isSome_iff (s := text) (by decide) read
  have recovered : (readSignature? text).isSome = true := by
    refine recovers.2 ⟨⟨_, _, _, fun _ mem => absurd mem List.not_mem_nil, by decide, whole⟩, ?_⟩
    rintro type same
    cases same
    exact (cutReturn?_eq_none_iff (by decide)).1 (by decide)
  have named : source (typedefOfText text) = text := by
    rw [source_typedefOfText]
    decide
  exact ⟨recovered, (reports (typedefOfText text) (by decide) (by decide) named).2 recovered⟩

/-- A function that returns a function with a return type is read, but it is not recovered. -/
theorem nested_return_unmatched :
    let text := "function(A): function(B): C"
    let d := typedefOfText text
    '\n' ∉ text.toList ∧
      Signature.read? (Text.trim text.toList) =
        some ⟨[⟨['A'], false, false⟩], some "function(B): C".toList⟩ ∧
      readSignature? text = none ∧
      isFunctionShaped d = true ∧ isMarked d = false ∧ source d = text ∧
      expand d = (d, [unmatched d]) := by
  intro text d
  have unreadable : readSignature? text = none := by
    rw [← Option.not_isSome_iff_eq_none, isSome_readSignature?]
    decide
  have shaped : isFunctionShaped d = true := by decide
  have unmarked : isMarked d = false := by decide
  have named : source d = text := by
    rw [source_typedefOfText]
    decide
  refine ⟨by decide, by decide, unreadable, shaped, unmarked, named, ?_⟩
  have word : (text == "function") = false := by decide
  unfold expand
  rw [shaped, unmarked, named, word, unreadable]
  rfl

end Ambient.FunctionTypedef
