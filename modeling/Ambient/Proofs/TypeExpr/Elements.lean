import Ambient.Proofs.OrderedMap
import Ambient.Proofs.TypeExpr.Cuts
/-!
# Arrays of any element type

`Array.<T>`, `Array<T>` and `T[]` are read as arrays before any other pattern is tried, whatever
stands for `T`. Behind the base `Array` the bracket that is found is the last one, for `T` is
balanced. In front of `[]` no pattern can claim the whole: its last bracket closes the one right in
front of it and none of those in `T`.

## Main statements

* `TypeExpr.cutGeneric?_brackets`: no text that ends in `[]` is a generic application.
* `TypeExpr.elementOf?_brackets`: `[]` behind a text is found before anything else.
* `TypeExpr.cutGeneric?_path`, `TypeExpr.elementOf?_path`: a path with a balanced text in angle
  brackets.
* `Config.typeText_array_spellings`: what the spellings of an array are translated to.
-/

namespace Ambient

namespace TypeExpr

/-! ## Brackets at the end -/

/-- A text that ends in an opening bracket is not balanced. -/
theorem isBalancedFrom_concat_opening {o : Char} (opening : isOpening o = true) (depth : Nat)
    (previous : Char) (s : List Char) : isBalancedFrom depth previous (s ++ [o]) = false := by
  induction s generalizing depth previous with
  | nil =>
    rw [List.nil_append, isBalancedFrom_of_opens (role_opens opening previous)]
    rfl
  | cons c s ih =>
    rw [List.cons_append]
    cases role : role previous c with
    | opens => rw [isBalancedFrom_of_opens role, ih]
    | plain => rw [isBalancedFrom_of_plain role, ih]
    | closes =>
      cases depth with
      | zero => rw [isBalancedFrom_of_closes_last role]
      | succ depth => rw [isBalancedFrom_of_closes role, ih]

/-- **No text that ends in `[]` is a generic application.** The last bracket would have to close the
first angle bracket, with the opening one in front of it still open. -/
theorem cutGeneric?_brackets (s : List Char) : cutGeneric? (s ++ ['[', ']']) = none := by
  rw [Option.eq_none_iff_forall_ne_some]
  rintro ⟨base, args⟩ found
  obtain ⟨dot, k, -, whole, -, balanced, -⟩ := cutGeneric?_eq_some found
  have front : s ++ ['['] = base ++ (dot ++ '<' :: args) := by
    have split : (s ++ ['[']) ++ [']'] = (base ++ (dot ++ '<' :: args)) ++ [k] := by
      simpa using whole
    exact (List.append_inj' split rfl).1
  rcases List.eq_nil_or_concat' args with rfl | ⟨args, c, rfl⟩
  · have split : s ++ ['['] = (base ++ dot) ++ ['<'] := by simpa using front
    cases (List.append_inj' split rfl).2
  · have split : s ++ ['['] = (base ++ (dot ++ '<' :: args)) ++ [c] := by simpa using front
    cases (List.append_inj' split rfl).2
    rw [isBalancedFrom_concat_opening rfl] at balanced
    cases balanced

/-- `[]` behind a text is found before anything else. -/
theorem elementOf?_brackets {element : List Char} (filled : Text.trim element ≠ []) :
    elementOf? (element ++ ['[', ']']) = some element := by
  have kept : (Text.trim element).isEmpty = false := List.isEmpty_eq_false_iff.2 filled
  unfold elementOf?
  rw [cutGeneric?_brackets, Text.dropFinish?_append]
  simp [kept]

/-! ## Angle brackets behind a path -/

section Path

variable {base dot args : List Char}

/-- A path with a balanced text in angle brackets is a generic application. -/
theorem cutGeneric?_path (path : IsPath base) (optional : dot = [] ∨ dot = ['.'])
    (balanced : isBalanced args = true) (noArrow : args.getLast? ≠ some '=') :
    cutGeneric? (base ++ dot ++ '<' :: (args ++ ['>'])) = some (base, args) := by
  have fresh : '<' ∉ base ++ dot := by
    rw [List.mem_append]
    rintro (mem | mem)
    · exact path.not_mem rfl mem
    · rcases optional with rfl | rfl
      · cases mem
      · cases List.mem_singleton.1 mem
  have chars : base.all isBaseChar = true := by
    rw [List.all_eq_true]
    exact fun c mem => isBaseChar_of_isPathChar (path.isPathChar_of_mem c mem)
  have filled : base.isEmpty = false := by
    rw [List.isEmpty_eq_false_iff]
    exact path.ne_nil
  have closed : untilClose? 0 '<' (args ++ ['>']) = some (args, []) :=
    untilClose?_eq_some_iff.2 ⟨'>', rfl, isBalancedFrom_of_isBalanced balanced '<',
      role_closes rfl fun _ => getLastD_ne_equals rfl noArrow⟩
  rw [cutGeneric?_cut fresh, baseOf_path path dot optional, chars, filled, closed]
  rfl

/-- Of the paths with arguments, only `Array` makes an array. -/
theorem elementOf?_path (path : IsPath base) (optional : dot = [] ∨ dot = ['.'])
    (balanced : isBalanced args = true) (noArrow : args.getLast? ≠ some '=') :
    elementOf? (base ++ dot ++ '<' :: (args ++ ['>'])) =
      if base = "Array".toList then some args else none := by
  refine elementOf?_of_cutGeneric? ?_ (cutGeneric?_path path optional balanced noArrow)
  rw [getLast?_wrapped]
  decide

end Path

/-! ## Reading arrays -/

/-- What is read depends on the trimmed text only. -/
theorem read_congr (replacement? : String → Option String) {s t : List Char}
    (same : Text.trim s = Text.trim t) : read replacement? s = read replacement? t := by
  rw [read_eq, read_eq, same]

theorem read_array {replacement? : String → Option String} {raw element : List Char}
    (free : replacement? (String.ofList (Text.trim raw)) = none)
    (found : elementOf? (Text.trim raw) = some element) :
    read replacement? raw = .array (read replacement? element) := by
  rw [read_eq, free, Form.of_array found]
  rfl

end TypeExpr

namespace Config

open TypeExpr

/-- A text is not replaced if it has no entry of its own and is none of the built-in ones. -/
theorem replacement?_eq_none_iff {c : Config} {name : String} : c.replacement? name = none ↔
    name ∉ c.typeReplacements.keys ∧ name ∉ builtinReplacements.map Prod.fst := by
  unfold replacement?
  rw [← OrderedMap.get?_eq_none_iff, ← OrderedMap.lookup_eq_none_iff]
  cases c.typeReplacements.get? name <;> simp

theorem typeText_array {c : Config} {raw : String} {element : List Char}
    (free : c.replacement? (Text.trimmed raw) = none)
    (found : elementOf? (Text.trim raw.toList) = some element) :
    c.typeText raw = { c.typeText (String.ofList element) with
      text := (c.typeText (String.ofList element)).text ++ "[]" } := by
  unfold typeText readType
  rw [read_array free found, String.toList_ofList]
  rfl

/-- An array in angle brackets, with a dot in front of them or not. -/
theorem typeText_array_angle {c : Config} {spelling element : String} {dot : List Char}
    (optional : dot = [] ∨ dot = ['.'])
    (spelled : spelling.toList = "Array".toList ++ dot ++ '<' :: (element.toList ++ ['>']))
    (balanced : isBalanced element.toList = true) (noArrow : element.toList.getLast? ≠ some '=')
    (unreplaced : spelling ∉ c.typeReplacements.keys) :
    c.typeText spelling = { c.typeText element with
      text := (c.typeText element).text ++ "[]" } := by
  have tight : Text.Tight spelling.toList := by
    rw [spelled]
    exact ⟨⟨'A', rfl, rfl⟩, ⟨'>', getLast?_wrapped _ _ _ _, rfl⟩⟩
  have unlisted : spelling ∉ builtinReplacements.map Prod.fst := by
    have others : ∀ key ∈ builtinReplacements.map Prod.fst, key.toList.head? ≠ some 'A' := by decide
    intro mem
    refine others spelling mem ?_
    rw [spelled]
    rfl
  have free : c.replacement? (Text.trimmed spelling) = none := by
    rw [Text.trimmed, tight.trim_eq, String.ofList_toList]
    exact replacement?_eq_none_iff.2 ⟨unreplaced, unlisted⟩
  have found : elementOf? (Text.trim spelling.toList) = some element.toList := by
    rw [tight.trim_eq, spelled, elementOf?_path isPath_array optional balanced noArrow, if_pos rfl]
  have whole := typeText_array free found
  rwa [String.ofList_toList] at whole

/-- An array with brackets behind its element type. -/
theorem typeText_array_brackets {c : Config} {element : String}
    (filled : Text.trim element.toList ≠ [])
    (unreplaced : Text.trimmed (element ++ "[]") ∉ c.typeReplacements.keys) :
    c.typeText (element ++ "[]") = { c.typeText element with
      text := (c.typeText element).text ++ "[]" } := by
  have bare : Text.trim (element ++ "[]").toList = Text.trimStart element.toList ++ ['[', ']'] := by
    rw [String.toList_append]
    exact Text.trim_append_solid filled (c := ']') rfl rfl
  have unlisted : Text.trimmed (element ++ "[]") ∉ builtinReplacements.map Prod.fst := by
    have others : ∀ key ∈ builtinReplacements.map Prod.fst, key.toList.getLast? ≠ some ']' := by
      decide
    intro mem
    refine others _ mem ?_
    rw [Text.trimmed, bare, String.toList_ofList, List.getLast?_append]
    rfl
  have found : elementOf? (Text.trim (element ++ "[]").toList) =
      some (Text.trimStart element.toList) := by
    rw [bare]
    exact elementOf?_brackets (by rwa [Text.trim_trimStart])
  rw [typeText_array (replacement?_eq_none_iff.2 ⟨unreplaced, unlisted⟩) found]
  have same : c.typeText (String.ofList (Text.trimStart element.toList)) = c.typeText element := by
    unfold typeText readType
    rw [String.toList_ofList, read_congr c.replacement? (Text.trim_trimStart element.toList)]
  rw [same]

/-- **The spellings of an array are translated alike**, to the type of their elements with `[]`
behind it, and they mention what the element type mentions. In angle brackets the element type may be
any balanced text that does not end in an equals sign; in front of `[]` it may be any text that is
not blank. -/
theorem typeText_array_spellings (c : Config) (element : String) :
    let array : TypeText :=
      { c.typeText element with text := (c.typeText element).text ++ "[]" }
    (isBalanced element.toList = true → element.toList.getLast? ≠ some '=' →
      ∀ spelling ∈ ["Array.<" ++ element ++ ">", "Array<" ++ element ++ ">"],
        spelling ∉ c.typeReplacements.keys → c.typeText spelling = array) ∧
    (Text.trim element.toList ≠ [] →
      Text.trimmed (element ++ "[]") ∉ c.typeReplacements.keys →
        c.typeText (element ++ "[]") = array) := by
  intro array
  constructor
  · intro balanced noArrow spelling mem unreplaced
    rcases List.mem_cons.1 mem with rfl | mem
    · refine typeText_array_angle (.inr rfl) ?_ balanced noArrow unreplaced
      simp only [String.toList_append]
      rfl
    · rw [List.mem_singleton] at mem
      subst mem
      refine typeText_array_angle (.inl rfl) ?_ balanced noArrow unreplaced
      simp only [String.toList_append]
      rfl
  · exact fun filled unreplaced => typeText_array_brackets filled unreplaced

/-- A function type with brackets, a mark and a union in it, and a text with open brackets. -/
theorem typeText_array_spellings_open :
    let c : Config := {}
    let element := "function(A.<B>=): C|D"
    (c.typeText "Array.<function(A.<B>=): C|D>").text = (c.typeText element).text ++ "[]" ∧
      (c.typeText "function(A.<B>=): C|D[]").text = (c.typeText element).text ++ "[]" ∧
      isBalanced " Array.<(B".toList = false ∧
      (c.typeText " Array.<(B[]").events = (c.typeText " Array.<(B").events := by
  intro c element
  obtain ⟨angle, brackets⟩ := typeText_array_spellings c element
  have alike := angle (by decide) (by decide) "Array.<function(A.<B>=): C|D>" (by decide)
    List.not_mem_nil
  have alike' := brackets (by decide) List.not_mem_nil
  have opened := (typeText_array_spellings c " Array.<(B").2 (by decide) List.not_mem_nil
  have joined : element ++ "[]" = "function(A.<B>=): C|D[]" := by decide
  have joined' : " Array.<(B" ++ "[]" = " Array.<(B[]" := by decide
  rw [joined] at alike'
  rw [joined'] at opened
  refine ⟨?_, ?_, by decide, ?_⟩
  · rw [alike]
  · rw [alike']
  · rw [opened]

end Config

end Ambient
