import Ambient.Declaration.Rendering
import Ambient.Proofs.FunctionTypedef.Expansion
import Ambient.Proofs.FunctionTypedef.Parts
import Ambient.Proofs.Rendering
/-!
# Function typedefs and function types print alike

A typedef of a function type is expanded to parameters and a return value, and printed like a
documented function. The same text inside of another type is translated as an expression. The two
agree but for one thing: a typedef puts parentheses around the type of a rest argument if a bar or
an arrow stands in it, and an expression does not.

## Main definitions

* `FunctionTypedef.isGrouped`: whether the type of an argument gets parentheses in a typedef.
* `FunctionTypedef.printedArgument`: an argument with its type as a typedef prints it.

## Main statements

* `FunctionTypedef.print_paramsLine`, `FunctionTypedef.print_returnLine`: the signature of an
  expanded typedef.
* `FunctionTypedef.HasParts.steps_renderTypedef`: an expanded typedef as it is written.
* `FunctionTypedef.print_eq_print_iff`: when parentheses make no difference.
* `FunctionTypedef.IsCall.render_expand_iff`: when both ways give the same type.
* `FunctionTypedef.rest_union_differs`: a rest argument for which they do not.
-/

namespace Ambient.FunctionTypedef

open TypeExpr

variable {c : Config} {s inside tail : List Char} {returns : Option (List Char)}

/-! ## Parameters by position -/

theorem dot_not_mem_position (index : Nat) : '.' ∉ ("arg" ++ toString index).toList :=
  fun mem => absurd (isWordChar_of_mem_position index '.' mem) (by decide)

/-- The parameters of an expanded typedef are no fields of others and have no descriptions. -/
theorem bare_of_mem_paramsFrom {index : Nat} {arguments : List (TypeExpr.Argument (List Char))}
    {p : Param} (mem : p ∈ paramsFrom index arguments) :
    p.isNested = false ∧ p.description = none := by
  induction arguments generalizing index with
  | nil => cases mem
  | cons argument rest ih =>
    rcases List.mem_cons.1 mem with rfl | later
    · exact ⟨by simpa [Param.isNested] using dot_not_mem_position index, rfl⟩
    · exact ih later

theorem plainParams_paramsFrom (index : Nat) (arguments : List (TypeExpr.Argument (List Char))) :
    plainParams (paramsFrom index arguments) = paramsFrom index arguments := by
  unfold plainParams
  rw [List.filter_eq_self]
  intro p mem
  rw [(bare_of_mem_paramsFrom mem).1]
  rfl

/-- Nothing of an expanded typedef is listed in its comment. -/
theorem tagLines_expanded (arguments : List (TypeExpr.Argument (List Char)))
    (returns : Option (List Char)) :
    tagLines (paramsFrom 0 arguments) (returnParams returns) = [] := by
  unfold tagLines
  rw [plainParams_paramsFrom, List.append_eq_nil_iff, List.filterMap_eq_nil_iff]
  constructor
  · intro p mem
    rw [(bare_of_mem_paramsFrom mem).2]
    cases p.name <;> rfl
  · cases returns <;> rfl

/-! ## Lines -/

/-- Whether the type of an argument gets parentheses: it takes all further arguments, and a bar or
an arrow stands in its printed type. -/
def isGrouped (c : Config) (argument : TypeExpr.Argument (List Char)) : Bool :=
  argument.isRest &&
    (Text.contains "|" (c.translation argument.type) ||
      Text.contains "=>" (c.translation argument.type))

/-- An argument with its type as a typedef prints it. -/
def printedArgument (c : Config) (argument : TypeExpr.Argument (List Char)) :
    TypeExpr.Argument String :=
  argument.map fun type =>
    if isGrouped c argument then "(" ++ c.translation type ++ ")" else c.translation type

section Lines

variable (names : ∀ key ∈ c.typeReplacements.keys, IsPath key.toList)

include names

/-- The alternatives of an argument are printed as its type. -/
theorem printedType_alternatives {pieces : List (List Char)} (union : IsUnion pieces s) :
    c.printedType (alternatives s) = c.translation s := by
  have text : (c.unionText (alternatives s)).text = c.translation s := by
    rw [Config.text_unionText, union.translation_alternatives names]
  obtain ⟨first, rest, whole⟩ := List.exists_cons_of_ne_nil union.alternatives_ne_nil
  rw [Config.printedType, Config.unionText?, union.printedNames_alternatives]
  rw [whole] at text ⊢
  exact text

/-- The entries of the parameter list are printed like arguments. -/
theorem print_slotsFrom (subject : String) {arguments : List (TypeExpr.Argument (List Char))}
    (unions : ∀ argument ∈ arguments, ∃ pieces, IsUnion pieces argument.type) (index : Nat)
    (afterOptional : Bool) :
    (slotsFrom index afterOptional (paramsFrom index arguments)).map
        (fun slot => Line.print c (slot.line subject)) =
      printArguments index afterOptional (arguments.map (printedArgument c)) := by
  induction arguments generalizing index afterOptional with
  | nil => rfl
  | cons argument rest ih =>
    rw [List.forall_mem_cons] at unions
    obtain ⟨⟨pieces, union⟩, others⟩ := unions
    -- Whether this is taken for an identifier or not, the parameter is printed under it.
    have named : ∀ p : Param, p.name = some ("arg" ++ toString index) →
        paramName index p = "arg" ++ toString index := by
      intro p own
      unfold paramName
      rw [own]
      exact ite_self _
    have defined : ∀ p : Param, p.type = some ⟨alternatives argument.type⟩ →
        p.allowsUndefined = false := by
      intro p own
      unfold Param.allowsUndefined
      rw [own]
      exact union.allowsUndefined_eq
    have typed : ∀ p : Param, p.type = some ⟨alternatives argument.type⟩ →
        c.printedType p.alternatives = c.translation argument.type := by
      intro p own
      unfold Param.alternatives
      rw [own]
      exact printedType_alternatives names union
    rw [paramsFrom, List.map_cons, slotsFrom, printArguments, named _ rfl, defined _ rfl]
    cases isRest : argument.isRest with
    | true =>
      simp only [if_true, Param.isRest, Option.getD_some, List.map_cons, ih others]
      rw [Slot.print_line_of_isRest rfl, typed _ rfl]
      simp only [printedArgument, TypeExpr.Argument.map, isGrouped, isRest, Bool.true_and, if_true,
        Piece.parenthesized]
    | false =>
      simp only [Param.isRest, Option.getD_none, Bool.false_eq_true, if_false, Bool.or_false,
        List.map_cons]
      rw [Slot.print_line_of_plain rfl, typed _ rfl]
      cases isOptional : argument.isOptional <;>
        simp [printedArgument, TypeExpr.Argument.map, isGrouped, isRest, isOptional,
          Param.isOptional, ih others]

/-- The parameter list of the expanded typedef. -/
theorem print_paramsLine (subject : String) {arguments : List (TypeExpr.Argument (List Char))}
    (unions : ∀ argument ∈ arguments, ∃ pieces, IsUnion pieces argument.type) :
    Line.print c (paramsLine subject (paramsFrom 0 arguments)) =
      Text.joinWith ", " (printArguments 0 false (arguments.map (printedArgument c))) := by
  rw [paramsLine, Line.print_joinWith, List.map_map, slots, plainParams_paramsFrom,
    ← print_slotsFrom names subject unions]
  rfl

/-- The return type of the expanded typedef. -/
theorem print_returnLine (h : IsReturns returns tail) (subject : String) :
    Line.print c (returnLine c subject (returnParams returns)) =
      (returns.map c.translation).getD c.defaultReturnType := by
  cases h with
  | absent => exact String.append_empty
  | @present pieces r before after union =>
    have alternatives : (returnParams (some r)).flatMap Param.alternatives =
        pieces.map String.ofList := by
      rw [returnParams, union.tight.trim_eq, union.splitOutside_eq, List.flatMap_singleton]
      rfl
    have text : (c.unionText (pieces.map String.ofList)).text = c.translation r := by
      rw [Config.text_unionText, union.translation_pieces names, List.map_map]
      simp only [Function.comp_def, String.toList_ofList]
    obtain ⟨first, rest, rfl⟩ := List.exists_cons_of_ne_nil union.joined.ne_nil
    unfold returnLine
    rw [alternatives, union.printedNames_pieces]
    rw [List.map_cons] at text ⊢
    simp only [Line.print, Piece.print, text, String.append_empty, Option.map_some,
      Option.getD_some]

end Lines

/-! ## Expanded typedefs -/

/-- **An expanded typedef as it is written**: its comment, and one line with a function type. -/
theorem HasParts.steps_renderTypedef (h : HasParts inside tail returns)
    (names : ∀ key ∈ c.typeReplacements.keys, IsPath key.toList) {d : Doclet}
    (shaped : isFunctionShaped d = true) (unmarked : isMarked d = false)
    (reads : source d = String.ofList ("function".toList ++ '(' :: (inside ++ ')' :: tail)))
    (accepted : (readSignature? (source d)).isSome = true) :
    ((expand d).1.renderTypedef c).steps c =
      (docs c (expand d).1 d.description "type" []).steps c ++
        [.line ("type " ++ d.typedefName ++ " = " ++
          Signature.print ⟨(readArguments inside).map (printedArgument c),
            returns.map c.translation⟩ c.defaultReturnType ++ ";")] := by
  obtain ⟨signature, found⟩ := Option.isSome_iff_exists.1 accepted
  have expanded := congrArg Prod.fst (expand_of_read shaped unmarked found)
  rw [reads] at found
  rw [h.readSignature?_eq found] at expanded
  have marked : (expand d).1.hasSignature = true := by
    rw [expanded, Doclet.hasSignature, isMarked, contains_withMark]
    rfl
  have params : (expand d).1.params = paramsFrom 0 (readArguments inside) := by rw [expanded]
  have returned : (expand d).1.returns = returnParams returns := by rw [expanded]
  have description : (expand d).1.description = d.description := by rw [expanded]
  have name : (expand d).1.typedefName = d.typedefName := by
    rw [expanded]
    rfl
  have line : ∀ pieces : Line, (Rendering.line pieces).steps c = [.line (pieces.print c)] :=
    fun _ => rfl
  have opening : " = (" = " = " ++ "(" := rfl
  rw [Doclet.renderTypedef, marked, if_pos rfl, Doclet.renderFunction, params, returned, name,
    description, tagLines_expanded, Rendering.steps_append, line]
  simp only [Line.print_append, Line.print, Piece.print, print_paramsLine names _ h.exists_union,
    print_returnLine names h.returns, Signature.print, opening, String.append_assoc,
    String.append_empty]

/-! ## Parentheses -/

/-- Each grouped argument is longer by two parentheses. -/
theorem length_flatMap_printArguments (index : Nat) (afterOptional : Bool)
    (arguments : List (TypeExpr.Argument (List Char))) :
    ((printArguments index afterOptional (arguments.map (printedArgument c))).flatMap
        String.toList).length =
      ((printArguments index afterOptional
        (arguments.map (TypeExpr.Argument.map c.translation))).flatMap String.toList).length +
        2 * arguments.countP (isGrouped c) := by
  induction arguments generalizing index afterOptional with
  | nil => rfl
  | cons argument rest ih =>
    have longer : (printedArgument c argument).type.length =
        (argument.map c.translation).type.length + 2 * if isGrouped c argument then 1 else 0 := by
      simp only [printedArgument, TypeExpr.Argument.map]
      split
      · have parentheses : "(".length = 1 ∧ ")".length = 1 := ⟨rfl, rfl⟩
        rw [String.length_append, String.length_append, parentheses.1, parentheses.2]
        omega
      · rfl
    have isRest : (printedArgument c argument).isRest = argument.isRest := rfl
    have isOptional : (printedArgument c argument).isOptional = argument.isOptional := rfl
    have isRest' : (argument.map c.translation).isRest = argument.isRest := rfl
    have isOptional' : (argument.map c.translation).isOptional = argument.isOptional := rfl
    rw [List.map_cons, List.map_cons, printArguments, printArguments, List.countP_cons, isRest,
      isOptional, isRest', isOptional']
    cases argument.isRest with
    | true =>
      simp only [if_true, List.flatMap_cons, List.length_append, String.length_toList,
        String.length_append, ih, longer]
      omega
    | false =>
      simp only [Bool.false_eq_true, if_false, List.flatMap_cons, List.length_append,
        String.length_toList, String.length_append, ih, longer]
      omega

theorem length_printArguments (index : Nat) (afterOptional : Bool)
    (arguments : List (TypeExpr.Argument String)) :
    (printArguments index afterOptional arguments).length = arguments.length := by
  induction arguments generalizing index afterOptional with
  | nil => rfl
  | cons argument rest ih =>
    unfold printArguments
    cases argument.isRest <;> simp [ih]

/-- **When parentheses make no difference**: if there are none. -/
theorem print_eq_print_iff (arguments : List (TypeExpr.Argument (List Char)))
    (returned : Option String) (default : String) :
    Signature.print ⟨arguments.map (printedArgument c), returned⟩ default =
        Signature.print ⟨arguments.map (TypeExpr.Argument.map c.translation), returned⟩ default ↔
      ∀ argument ∈ arguments, isGrouped c argument = false := by
  constructor
  · intro same
    -- But for parentheses both are made of the same characters, so their lengths tell them apart.
    have lengths := congrArg String.length same
    simp only [Signature.print, String.length_append, Text.length_joinWith, length_printArguments,
      List.length_map, length_flatMap_printArguments] at lengths
    have none : arguments.countP (isGrouped c) = 0 := by omega
    intro argument mem
    simpa using List.countP_eq_zero.1 none argument mem
  · intro none
    have plain : arguments.map (printedArgument c) =
        arguments.map (TypeExpr.Argument.map c.translation) := by
      refine List.map_congr_left fun argument mem => ?_
      unfold printedArgument
      rw [none argument mem]
      rfl
    rw [plain]

/-- **When both ways give the same type**: if no argument is grouped. A typedef of a function type
is written with a type of its own, and that is the translation of the text unless a rest argument
gets parentheses. -/
theorem IsCall.render_expand_iff (call : IsCall s)
    (names : ∀ key ∈ c.typeReplacements.keys, IsPath key.toList) {d : Doclet}
    (shaped : isFunctionShaped d = true) (unmarked : isMarked d = false)
    (reads : source d = String.ofList s) (accepted : (readSignature? (source d)).isSome = true)
    (level : Nat) :
    ∃ signature type, Signature.read? s = some signature ∧
      ((Declaration.typedefOf (expand d).1 c).render c level).steps c =
        (docs c (expand d).1 d.description "type" []).steps c ++
          [.line ("type " ++ d.typedefName ++ " = " ++ type ++ ";")] ∧
      (type = (c.typeText (String.ofList s)).text ↔
        ∀ argument ∈ signature.arguments, isGrouped c argument = false) := by
  obtain @⟨inside, tail, returns, parts⟩ := call
  refine ⟨_, Signature.print ⟨(readArguments inside).map (printedArgument c),
    returns.map c.translation⟩ c.defaultReturnType, parts.read?_eq, ?_, ?_⟩
  · rw [Declaration.typedefOf, Declaration.render]
    exact parts.steps_renderTypedef names shaped unmarked reads accepted
  · rw [Config.text_typeText, String.toList_ofList, parts.translation_eq names]
    exact print_eq_print_iff _ _ _

/-- A single character of names is a simple type. -/
theorem isSimple_letter {ch : Char} (char : isBaseChar ch = true) (noDot : ch ≠ '.') :
    IsSimple [ch] := by
  have base : IsBase [ch] := ⟨List.cons_ne_nil _ _, List.forall_mem_singleton.2 char⟩
  refine .name base (by simpa using noDot) ?_
  have apart : ∀ word : String, word.length ≠ 1 → (String.ofList [ch] == word) = false := by
    intro word long
    rw [beq_eq_false_iff_ne]
    rintro rfl
    exact long String.length_ofList
  simp only [Config.isNullish, Text.trimmed, String.toList_ofList, base.tight.trim_eq,
    apart "null" (by decide), apart "undefined" (by decide), Bool.or_self]

theorem translation_letter {ch : Char} (identifier : IsAsciiIdentifier [ch]) :
    ({} : Config).translation [ch] = (DocType.name [ch]).render {} := by
  refine DocType.translation_eq_render (fun key mem => nomatch mem) (DocType.Spells.unmarked ?_)
  refine .name ⟨.single identifier, fun same => ?_⟩
  cases congrArg List.length same

/-- Marks, a generic application and unions, with a rest argument that is not grouped. -/
theorem render_expand_marked :
    let text := "function(?A|Map<K, V>=, ...B): P | Q"
    let d := typedefOfText text
    IsCall text.toList ∧ isFunctionShaped d = true ∧ isMarked d = false ∧ source d = text ∧
      (readSignature? (source d)).isSome = true ∧
      ((Declaration.typedefOf (expand d).1 {}).render {} 0).steps {} =
        [.line ("type N = " ++ (({} : Config).typeText text).text ++ ";")] := by
  intro text d
  have names : ∀ key ∈ ({} : Config).typeReplacements.keys, IsPath key.toList :=
    fun key mem => nomatch mem
  have map : IsSimple "Map<K, V>".toList := by
    refine @IsSimple.generic "Map".toList "K, V".toList (.of_all (by decide) (by decide))
      (by decide) ?_ (by decide)
    repeat refine .plain rfl rfl trivial ?_
    exact .nil
  have first : IsUnion ["?A".toList, "Map<K, V>=".toList] "?A|Map<K, V>=".toList :=
    .cons (.front (isSimple_letter rfl (by decide))) 0 0 (.single (.behind map))
  have second : IsUnion [['B']] ['B'] := .single (.plain (isSimple_letter rfl (by decide)))
  have third : IsUnion [['P'], ['Q']] "P | Q".toList :=
    .cons (.plain (isSimple_letter rfl (by decide))) 1 1
      (.single (.plain (isSimple_letter rfl (by decide))))
  have call : IsCall text.toList := by
    have whole : text.toList = "function".toList ++ '(' :: ("?A|Map<K, V>=, ...B".toList ++
        ')' :: (Text.pad 0 ++ ':' :: (Text.pad 1 ++ "P | Q".toList))) := by decide
    rw [whole]
    refine @IsCall.mk "?A|Map<K, V>=, ...B".toList _ _ ⟨?_, .present 0 1 third⟩
    refine ⟨[_, _], ?_, .joined (.cons "?A|Map<K, V>=".toList 0 1 (.single "...B".toList))⟩
    rw [List.forall_mem_cons, List.forall_mem_singleton]
    exact ⟨.plain first, .rest second⟩
  have only : d.alternatives = [String.ofList text.toList] := by
    rw [String.ofList_toList]
    rfl
  have shaped := call.isFunctionShaped_eq rfl only
  have unmarked : isMarked d = false := by decide
  have reads := call.source_eq only annotation?_empty
  have accepted : (readSignature? (source d)).isSome = true := by
    rw [reads, String.ofList_toList]
    decide
  have read : Signature.read? text.toList = some ⟨[⟨"A|Map<K, V>=".toList, true, false⟩,
      ⟨['B'], false, true⟩], some "P | Q".toList⟩ := by decide
  have rest : ({} : Config).translation ['B'] = "B" := translation_letter ⟨by decide, by decide⟩
  obtain ⟨signature, type, found, steps, same⟩ :=
    call.render_expand_iff names shaped unmarked reads accepted 0
  cases found.symm.trans read
  have plain : ∀ argument ∈ [(⟨"A|Map<K, V>=".toList, true, false⟩ : TypeExpr.Argument (List Char)),
      ⟨['B'], false, true⟩], isGrouped {} argument = false := by
    rw [List.forall_mem_cons, List.forall_mem_singleton]
    refine ⟨rfl, ?_⟩
    unfold isGrouped
    rw [rest]
    decide
  rw [same.2 plain, String.ofList_toList] at steps
  exact ⟨call, shaped, unmarked, reads.trans String.ofList_toList, accepted, steps⟩

/-- A union that takes all further arguments gets parentheses in a typedef only. -/
theorem rest_union_differs :
    let text := "function(...A|B)"
    ((Declaration.typedefOf (expand (typedefOfText text)).1 {}).render {} 0).steps {} =
        [.line "type N = (...arg0: (A|B)[]) => any;"] ∧
      (({} : Config).typeText text).text = "(...arg0: A|B[]) => any" := by
  intro text
  have names : ∀ key ∈ ({} : Config).typeReplacements.keys, IsPath key.toList :=
    fun key mem => nomatch mem
  have union : IsUnion [['A'], ['B']] "A|B".toList :=
    .cons (.plain (isSimple_letter rfl (by decide))) 0 0
      (.single (.plain (isSimple_letter rfl (by decide))))
  have whole : text.toList = "function".toList ++ '(' :: ("...A|B".toList ++ ')' :: []) := by
    decide
  have parts : HasParts "...A|B".toList [] none := by
    refine ⟨⟨["...A|B".toList], ?_, .joined (.single _)⟩, .absent⟩
    rw [List.forall_mem_singleton]
    exact .rest union
  have arguments : readArguments "...A|B".toList = [⟨"A|B".toList, false, true⟩] := by decide
  have type : ({} : Config).translation "A|B".toList = "A|B" := by
    rw [union.translation_pieces names, List.map_cons, List.map_singleton,
      translation_letter ⟨by decide, by decide⟩, translation_letter ⟨by decide, by decide⟩]
    rfl
  have grouped : isGrouped {} ⟨"A|B".toList, false, true⟩ = true := by
    unfold isGrouped
    rw [type]
    decide
  have only : (typedefOfText text).alternatives =
      [String.ofList ("function".toList ++ '(' :: ("...A|B".toList ++ ')' :: []))] := by
    rw [← whole, String.ofList_toList]
    rfl
  have reads := (IsCall.mk parts).source_eq only annotation?_empty
  have accepted : (readSignature? (source (typedefOfText text))).isSome = true := by
    rw [reads, ← whole, String.ofList_toList]
    decide
  constructor
  · rw [Declaration.typedefOf, Declaration.render, parts.steps_renderTypedef names
      ((IsCall.mk parts).isFunctionShaped_eq rfl only) (by decide) reads accepted, arguments,
      List.map_singleton]
    unfold printedArgument
    rw [grouped]
    simp only [TypeExpr.Argument.map, type, if_true]
    rfl
  · rw [Config.text_typeText, whole, parts.translation_eq names, arguments]
    simp only [List.map_cons, TypeExpr.Argument.map, type]
    decide

end Ambient.FunctionTypedef
