import Ambient.Proofs.FunctionTypedef.Cutting
import Ambient.Proofs.TypeExpr.Bases
import Ambient.Proofs.TypeExpr.Translation
/-!
# What the patterns cut out of a text

The patterns of type expressions are tried on any text, well formed or not. Whatever they cut out of it
stands in it: here each of them is read backwards, from what it found to where that stands. Nothing is
assumed about the text.

## Main definitions

* `TypeExpr.IsApplication`: a text is a generic application, by its base and the bracket at its end.
* `TypeExpr.Form.Cut`: a text has a form, for what was found in it.

## Main statements

* `TypeExpr.untilClose?_eq_some_iff`: the bracket that is found is the one with a balanced text in
  front of it.
* `TypeExpr.cutOutside_join`: the pieces between separators make up the text.
* `TypeExpr.cutGeneric?_eq_some_iff`: which texts are generic applications, and why the others are not.
* `TypeExpr.cutGeneric?_eq_some`, `TypeExpr.Signature.read?_eq_some` and so on: where the parts of a
  pattern stand.
* `TypeExpr.Signature.read?_call`: which bracket closes the arguments of a function type.
* `TypeExpr.Form.cut_of`: what was found in a text of a given form.
* `TypeExpr.read_induction`: induction over what is read.
-/

namespace Ambient.TypeExpr

/-! ## Brackets and separators -/

theorem role_closes_iff {previous c : Char} :
    role previous c = .closes ↔ isClosing c = true ∧ ¬(c = '>' ∧ previous = '=') := by
  constructor
  · intro closes
    unfold role at closes
    split at closes
    · cases closes
    · split at closes
      · cases closes
      · rename_i noArrow
        split at closes
        · rename_i closing
          exact ⟨closing, noArrow⟩
        · cases closes
  · rintro ⟨closing, noArrow⟩
    exact role_closes closing fun angle equals => noArrow ⟨angle, equals⟩

/-- **The bracket that is found is the one with a balanced text in front of it.** -/
theorem untilClose?_eq_some_iff {depth : Nat} {previous : Char} {text inside after : List Char} :
    untilClose? depth previous text = some (inside, after) ↔
      ∃ k, text = inside ++ k :: after ∧ isBalancedFrom depth previous inside = true ∧
        role (inside.getLastD previous) k = .closes := by
  induction text generalizing depth previous inside with
  | nil => simp [untilClose?]
  | cons c text ih =>
    -- Unless the bracket is found right here, `c` is the first character of the text inside.
    have extend : ∀ d, untilClose? depth previous (c :: text) =
        (untilClose? d c text).map (fun found => (c :: found.1, found.2)) →
        (∀ tail, isBalancedFrom depth previous (c :: tail) = isBalancedFrom d c tail) →
        (inside = [] → isBalancedFrom depth previous [] = true →
          role previous c ≠ .closes) →
        (untilClose? depth previous (c :: text) = some (inside, after) ↔
          ∃ k, c :: text = inside ++ k :: after ∧ isBalancedFrom depth previous inside = true ∧
            role (inside.getLastD previous) k = .closes) := by
      intro d step balance noClose
      rw [step, Option.map_eq_some_iff]
      constructor
      · rintro ⟨⟨inner, rest⟩, found, same⟩
        cases same
        obtain ⟨k, rfl, balanced, closes⟩ := ih.1 found
        exact ⟨k, rfl, by rw [balance]; exact balanced, by rwa [List.getLastD_cons]⟩
      · rintro ⟨k, whole, balanced, closes⟩
        cases inside with
        | nil =>
          cases whole
          exact absurd closes (noClose rfl balanced)
        | cons d' inner =>
          cases whole
          rw [balance] at balanced
          rw [List.getLastD_cons] at closes
          exact ⟨(inner, after), ih.2 ⟨k, rfl, balanced, closes⟩, rfl⟩
    cases role : role previous c with
    | opens =>
      refine extend (depth + 1) (untilClose?_of_opens role text)
        (fun tail => isBalancedFrom_of_opens role tail) fun _ _ closes => ?_
      rw [role] at closes
      cases closes
    | plain =>
      refine extend depth (untilClose?_of_plain role text)
        (fun tail => isBalancedFrom_of_plain role tail) fun _ _ closes => ?_
      rw [role] at closes
      cases closes
    | closes =>
      cases depth with
      | succ depth =>
        refine extend depth (untilClose?_of_closes role text)
          (fun tail => isBalancedFrom_of_closes role tail) fun _ open' => ?_
        cases open'
      | zero =>
        rw [untilClose?_of_closes_last role]
        constructor
        · intro found
          cases found
          exact ⟨c, rfl, rfl, role⟩
        · rintro ⟨k, whole, balanced, closes⟩
          cases inside with
          | nil =>
            cases whole
            rfl
          | cons d inner =>
            cases whole
            rw [isBalancedFrom_of_closes_last role] at balanced
            cases balanced

/-- The pieces between separators, with a separator in front of each further one, make up the
text. -/
theorem cutOutside_join (separator : Char) (depth : Int) (previous : Char) (text : List Char) :
    (cutOutside separator depth previous text).1 ++
        (cutOutside separator depth previous text).2.flatMap (separator :: ·) = text := by
  induction text generalizing depth previous with
  | nil => rfl
  | cons c text ih =>
    have rest := ih (depthAfter depth (role previous c)) c
    by_cases cut : cutsAt separator depth c = true
    · have same : c = separator := by
        simp only [cutsAt, Bool.and_eq_true, beq_iff_eq] at cut
        exact cut.1.1.1
      rw [cutOutside_of_cutsAt cut, List.flatMap_cons, List.nil_append, List.cons_append, rest, same]
    · rw [cutOutside_of_not_cutsAt (Bool.eq_false_iff.2 cut), List.cons_append, rest]

/-- The pieces as they are kept: trimmed, and only if something is left. -/
theorem splitOutside_eq_flatMap (separator : Char) (text : List Char) :
    splitOutside separator text =
      ((cutOutside separator 0 '\x00' text).1 :: (cutOutside separator 0 '\x00' text).2).flatMap
        fun piece => if (Text.trim piece).isEmpty then [] else [Text.trim piece] := by
  unfold splitOutside
  simp only
  generalize (cutOutside separator 0 '\x00' text).1 :: (cutOutside separator 0 '\x00' text).2 = pieces
  induction pieces with
  | nil => rfl
  | cons piece pieces ih =>
    rw [List.map_cons, List.filter_cons, List.flatMap_cons, ← ih]
    by_cases empty : (Text.trim piece).isEmpty = true
    · simp [empty]
    · simp [empty]

/-! ## Generic applications -/

theorem isBaseChar_iff {c : Char} : isBaseChar c = true ↔
    Text.isWord c = true ∨ c ∈ ['$', '.', ':', '/', '~', '#', '-'] := by
  simp [isBaseChar, Text.isNameChar, or_assoc]

/-- The base in a text that stands in front of an angle bracket: the text without the dot at its
end, if there is one. It is made of word characters and joints. -/
structure HasBase (front base : List Char) : Prop where
  dot : front = base ++ ['.'] ∨ front = base ∧ base.getLast? ≠ some '.'
  filled : base ≠ []
  chars : ∀ c ∈ base, Text.isWord c = true ∨ c ∈ ['$', '.', ':', '/', '~', '#', '-']

theorem eq_baseOf_iff {front base : List Char} : base = baseOf front ↔
    front = base ++ ['.'] ∨ front = base ∧ base.getLast? ≠ some '.' := by
  unfold baseOf
  cases cut : Text.dropFinish? ['.'] front with
  | some rest =>
    have whole := Text.dropFinish?_eq_some_iff.1 cut
    rw [Option.getD_some, whole]
    constructor
    · rintro rfl
      exact .inl rfl
    · rintro (same | ⟨rfl, noDot⟩)
      · exact (List.append_inj' same rfl).1.symm
      · rw [List.getLast?_concat] at noDot
        exact absurd rfl noDot
  | none =>
    rw [Option.getD_none]
    constructor
    · rintro rfl
      refine .inr ⟨rfl, fun last => ?_⟩
      obtain ⟨rest, rfl⟩ := List.getLast?_eq_some_iff.1 last
      rw [Text.dropFinish?_append] at cut
      cases cut
    · rintro (rfl | ⟨rfl, -⟩)
      · rw [Text.dropFinish?_append] at cut
        cases cut
      · rfl

theorem hasBase_iff {front base : List Char} :
    HasBase front base ↔ base = baseOf front ∧ IsBase base := by
  constructor
  · intro h
    exact ⟨eq_baseOf_iff.2 h.dot, h.filled, fun c mem => isBaseChar_iff.2 (h.chars c mem)⟩
  · rintro ⟨same, base⟩
    exact ⟨eq_baseOf_iff.1 same, base.filled, fun c mem => isBaseChar_iff.1 (base.chars c mem)⟩

/-- A balanced text with the bracket behind it that closes one in front of it. The `>` of an arrow
closes nothing. -/
structure ClosedBy (args : List Char) (last : Char) : Prop where
  balanced : isBalanced args = true
  closing : isClosing last = true
  noArrow : ¬(last = '>' ∧ args.getLast? = some '=')

theorem getLastD_eq_equals_iff {args : List Char} :
    args.getLastD '<' = '=' ↔ args.getLast? = some '=' := by
  rw [List.getLastD_eq_getLast?]
  cases args.getLast? <;> simp

theorem closedBy_iff {args : List Char} {last : Char} : ClosedBy args last ↔
    isBalancedFrom 0 '<' args = true ∧ role (args.getLastD '<') last = .closes := by
  have noEquals : '<' ≠ '=' := by decide
  rw [isBalancedFrom_congr noEquals (show '\x00' ≠ '=' by decide), role_closes_iff,
    getLastD_eq_equals_iff]
  exact ⟨fun h => ⟨h.balanced, h.closing, h.noArrow⟩, fun ⟨h, h', h''⟩ => ⟨h, h', h''⟩⟩

/-- Behind an angle bracket the bracket that closes it is found. -/
theorem untilClose?_angle_iff {rest args after : List Char} :
    untilClose? 0 '<' rest = some (args, after) ↔
      ∃ last, rest = args ++ last :: after ∧ ClosedBy args last := by
  simp only [untilClose?_eq_some_iff, closedBy_iff]

/-- **A generic application is a base in front of the first angle bracket and a balanced text that
the last bracket closes.** -/
theorem cutGeneric?_front_iff {front rest base args : List Char} (fresh : '<' ∉ front) :
    cutGeneric? (front ++ '<' :: rest) = some (base, args) ↔
      HasBase front base ∧ ∃ last, rest = args ++ [last] ∧ ClosedBy args last := by
  rw [cutGeneric?_cut fresh, hasBase_iff, ← untilClose?_angle_iff]
  by_cases fits : ((baseOf front).isEmpty || !(baseOf front).all isBaseChar) = true
  · rw [if_pos fits]
    refine ⟨nofun, ?_⟩
    rintro ⟨⟨rfl, base⟩, -⟩
    simp only [Bool.or_eq_true, List.isEmpty_iff, Bool.not_eq_true', List.all_eq_false] at fits
    rcases fits with empty | ⟨c, mem, other⟩
    · exact absurd empty base.filled
    · exact absurd (base.chars c mem) other
  · rw [if_neg fits]
    simp only [Bool.or_eq_true, Bool.not_eq_true', not_or, Bool.not_eq_false] at fits
    have base' : IsBase (baseOf front) :=
      .of_all (fun empty => fits.1 (List.isEmpty_iff.2 empty)) fits.2
    rw [Option.bind_eq_some_iff]
    constructor
    · rintro ⟨⟨inside, after⟩, found, same⟩
      split at same
      · rename_i last
        cases same
        obtain rfl : after = [] := List.isEmpty_iff.1 last
        exact ⟨⟨rfl, base'⟩, found⟩
      · cases same
    · rintro ⟨⟨rfl, -⟩, found⟩
      exact ⟨(args, []), found, rfl⟩

/-- A name is a generic application of a base to an argument text: the base stands in front of the
first angle bracket, and the bracket that closes the arguments is the last character. -/
def IsApplication (name base args : List Char) : Prop :=
  ∃ front last, name = front ++ '<' :: (args ++ [last]) ∧ '<' ∉ front ∧ HasBase front base ∧
    ClosedBy args last

theorem isApplication_of_cutGeneric? {name base args : List Char}
    (found : cutGeneric? name = some (base, args)) : IsApplication name base args := by
  by_cases angle : '<' ∈ name
  · obtain ⟨front, rest, rfl, fresh⟩ := List.eq_append_cons_of_mem angle
    obtain ⟨based, last, rfl, closed⟩ := (cutGeneric?_front_iff fresh).1 found
    exact ⟨front, last, rfl, fresh, based, closed⟩
  · rw [cutGeneric?_eq_none_of_not_mem angle] at found
    cases found

/-- A generic application is a base, perhaps a dot, and a text in brackets. -/
theorem cutGeneric?_eq_some {name base args : List Char}
    (found : cutGeneric? name = some (base, args)) :
    ∃ dot k, (dot = [] ∨ dot = ['.']) ∧ name = base ++ (dot ++ '<' :: (args ++ [k])) ∧
      IsBase base ∧ isBalancedFrom 0 '<' args = true ∧ role (args.getLastD '<') k = .closes := by
  obtain ⟨front, k, rfl, -, based, closed⟩ := isApplication_of_cutGeneric? found
  obtain ⟨balanced, closes⟩ := closedBy_iff.1 closed
  have base' := (hasBase_iff.1 based).2
  rcases based.dot with rfl | ⟨rfl, -⟩
  · exact ⟨['.'], k, .inr rfl, List.append_assoc _ _ _, base', balanced, closes⟩
  · exact ⟨[], k, .inl rfl, rfl, base', balanced, closes⟩

/-- With an angle bracket in it, a text is no generic application if no base stands in front of that
bracket, or if the bracket is closed never or before the end. -/
theorem cutGeneric?_front_eq_none_iff {front rest : List Char} (fresh : '<' ∉ front) :
    cutGeneric? (front ++ '<' :: rest) = none ↔ (∀ base, ¬HasBase front base) ∨
      (∀ args last after, rest = args ++ last :: after → ¬ClosedBy args last) ∨
      ∃ args last after, rest = args ++ last :: after ∧ ClosedBy args last ∧ after ≠ [] := by
  constructor
  · intro none
    by_cases based : ∃ base, HasBase front base
    · obtain ⟨base, based⟩ := based
      refine .inr ?_
      cases close : untilClose? 0 '<' rest with
      | none =>
        refine .inl fun args last after whole closed => ?_
        rw [untilClose?_angle_iff.2 ⟨last, whole, closed⟩] at close
        cases close
      | some found =>
        obtain ⟨args, after⟩ := found
        obtain ⟨last, rfl, closed⟩ := untilClose?_angle_iff.1 close
        refine .inr ⟨args, last, after, rfl, closed, ?_⟩
        rintro rfl
        rw [(cutGeneric?_front_iff fresh).2 ⟨based, last, rfl, closed⟩] at none
        cases none
    · exact .inl (not_exists.1 based)
  · intro failed
    rw [Option.eq_none_iff_forall_ne_some]
    rintro ⟨base, args⟩ found
    obtain ⟨based, last, rfl, closed⟩ := (cutGeneric?_front_iff fresh).1 found
    rcases failed with baseless | unclosed | ⟨args', last', after, whole, closed', more⟩
    · exact baseless base based
    · exact unclosed args last [] rfl closed
    · -- Two brackets that close the same one are the same bracket.
      have close : untilClose? 0 '<' (args ++ [last]) = some (args, []) :=
        untilClose?_angle_iff.2 ⟨last, rfl, closed⟩
      rw [untilClose?_angle_iff.2 ⟨last', whole, closed'⟩] at close
      cases close
      exact more rfl

/-- **The generic applications are found, and nothing else.** A text is none if it has no angle
bracket, if no base stands in front of the first one, or if that one is closed never or before the
end. -/
theorem cutGeneric?_eq_some_iff (name : List Char) :
    (∀ base args, cutGeneric? name = some (base, args) ↔ IsApplication name base args) ∧
      (cutGeneric? name = none ↔ '<' ∉ name ∨
        ∃ front rest, name = front ++ '<' :: rest ∧ '<' ∉ front ∧
          ((∀ base, ¬HasBase front base) ∨
            (∀ args last after, rest = args ++ last :: after → ¬ClosedBy args last) ∨
            ∃ args last after, rest = args ++ last :: after ∧ ClosedBy args last ∧ after ≠ [])) := by
  refine ⟨fun base args => ⟨isApplication_of_cutGeneric?, ?_⟩, ?_, ?_⟩
  · rintro ⟨front, last, rfl, fresh, based, closed⟩
    exact (cutGeneric?_front_iff fresh).2 ⟨based, last, rfl, closed⟩
  · intro none
    by_cases angle : '<' ∈ name
    · obtain ⟨front, rest, rfl, fresh⟩ := List.eq_append_cons_of_mem angle
      exact .inr ⟨front, rest, rfl, fresh, (cutGeneric?_front_eq_none_iff fresh).1 none⟩
    · exact .inl angle
  · rintro (noAngle | ⟨front, rest, rfl, fresh, failed⟩)
    · exact cutGeneric?_eq_none_of_not_mem noAngle
    · exact (cutGeneric?_front_eq_none_iff fresh).2 failed

/-! ## Patterns -/

/-- The element type is the argument of `Array`, or it stands in front of `[]`. -/
theorem elementOf?_eq_some {name element : List Char} (found : elementOf? name = some element) :
    cutGeneric? name = some ("Array".toList, element) ∨ name = element ++ ['[', ']'] := by
  have direct : (Text.dropFinish? ['[', ']'] name).filter (fun element =>
      !(Text.trim element).isEmpty) = some element → name = element ++ ['[', ']'] :=
    fun kept => Text.dropFinish?_eq_some_iff.1 (Option.filter_eq_some_iff.1 kept).1
  unfold elementOf? at found
  simp only at found
  split at found
  · rename_i base args generic
    split at found
    · rename_i array
      cases found
      rw [generic, array]
      exact Or.inl rfl
    · exact Or.inr (direct found)
  · exact Or.inr (direct found)

/-- A text that is wrapped in brackets. -/
theorem insideBrackets?_eq_some {opening closing : Char} {name inner : List Char}
    (found : insideBrackets? opening closing name = some inner) :
    ∃ k, name = opening :: (inner ++ [k]) ∧ isBalancedFrom 0 opening inner = true ∧
      role (inner.getLastD opening) k = .closes := by
  unfold insideBrackets? at found
  split at found
  · cases found
  · split at found
    · rename_i outer
      split at found
      · rename_i close
        cases found
        obtain ⟨k, rfl, balanced, closes⟩ := untilClose?_eq_some_iff.1 close
        rw [outer.1] at balanced closes ⊢
        exact ⟨k, rfl, balanced, closes⟩
      · cases found
    · cases found

/-- A mark stands in front or is an equals sign at the end. -/
theorem withoutMark?_eq_some {name inner : List Char} (found : withoutMark? name = some inner) :
    name = '?' :: inner ∨ name = '!' :: inner ∨ name = inner ++ ['='] := by
  unfold withoutMark? at found
  split at found
  · cases found
  · split at found
    · rename_i mark
      cases found
      exact Or.inl (Text.dropStart?_eq_some_iff.1 mark)
    · split at found
      · rename_i mark
        cases found
        exact Or.inr (Or.inl (Text.dropStart?_eq_some_iff.1 mark))
      · exact Or.inr (Or.inr (Text.dropFinish?_eq_some_iff.1 found))

/-- What is left of an argument without its rest mark. -/
theorem withoutRestMark_fst (text : List Char) :
    (withoutRestMark text).1 = Text.trim text ∨
      ∃ rest, Text.trim text = ['.', '.', '.'] ++ rest ∧
        (withoutRestMark text).1 = Text.trim rest := by
  unfold withoutRestMark
  simp only
  split
  · rename_i rest dots
    exact Or.inr ⟨rest, Text.dropStart?_eq_some_iff.1 dots, rfl⟩
  · exact Or.inl rfl

/-- What is left of a type without its mark of optionality. -/
theorem withoutOptionalMark_fst (text : List Char) :
    (withoutOptionalMark text).1 = Text.trim text ∨
      ∃ rest, (Text.trim text = '?' :: rest ∨ Text.trim text = rest ++ ['=']) ∧
        (withoutOptionalMark text).1 = Text.trim rest := by
  unfold withoutOptionalMark
  simp only
  split
  · exact Or.inl rfl
  · split
    · rename_i rest mark
      exact Or.inr ⟨rest, Or.inl (Text.dropStart?_eq_some_iff.1 mark), rfl⟩
    · split
      · rename_i rest mark
        exact Or.inr ⟨rest, Or.inr (Text.dropFinish?_eq_some_iff.1 mark), rfl⟩
      · exact Or.inl rfl

/-- A return type stands behind a colon. -/
theorem readReturns?_eq_some {text type : List Char} (found : readReturns? text = some (some type)) :
    ∃ rest, Text.trim text = ':' :: rest ∧ type = Text.trim rest := by
  unfold readReturns? at found
  split at found
  · cases found
  · rename_i c rest bare
    split at found
    · cases found
    · rename_i colon
      rw [Decidable.not_not] at colon
      split at found
      · cases found
      · cases found
        exact ⟨rest, by rw [bare, colon], rfl⟩

/-- A function type is read at the bracket with a balanced text in front of it, and behind it. -/
theorem Signature.read?_call {blanks inside after : List Char} {k : Char}
    (blank : ∀ c ∈ blanks, Text.isBlank c = true) (balanced : isBalanced inside = true)
    (closes : role (inside.getLastD '(') k = .closes) :
    Signature.read? ("function".toList ++ (blanks ++ '(' :: (inside ++ k :: after))) =
      (readReturns? after).map fun returns => ⟨readArguments inside, returns⟩ := by
  have closed : untilClose? 0 '(' (inside ++ k :: after) = some (inside, after) :=
    untilClose?_eq_some_iff.2 ⟨k, rfl, isBalancedFrom_of_isBalanced balanced '(', closes⟩
  unfold Signature.read?
  rw [Text.dropStart?_append]
  simp only [Option.bind_eq_bind, Option.bind_some]
  rw [Text.trimStart_append blank, Text.trimStart_eq_self (c := '(') rfl rfl]
  simp only [closed, Option.bind_some]
  cases readReturns? after <;> rfl

/-- The word `function` and a nested text in parentheses make a function type, if what follows can be
a return type. -/
theorem Signature.read?_function {outside : Char → Prop} {inside : List Char}
    (nested : Nested outside inside) (after : List Char) :
    Signature.read? ("function".toList ++ '(' :: (inside ++ ')' :: after)) =
      (readReturns? after).map fun returns => ⟨readArguments inside, returns⟩ :=
  @Signature.read?_call [] inside after ')' (fun _ mem => absurd mem List.not_mem_nil)
    nested.isBalanced (role_parenthesis _)

/-- A function type is the word `function`, the arguments in brackets and what is read as the return
type. -/
theorem Signature.read?_eq_some {name : List Char} {signature : Signature (List Char)}
    (found : Signature.read? name = some signature) :
    ∃ blanks inside k after, (∀ c ∈ blanks, Text.isBlank c = true) ∧
      name = "function".toList ++ (blanks ++ '(' :: (inside ++ k :: after)) ∧
      isBalancedFrom 0 '(' inside = true ∧ role (inside.getLastD '(') k = .closes ∧
      signature.arguments = readArguments inside ∧
      readReturns? after = some signature.returns := by
  unfold Signature.read? at found
  simp only [Option.bind_eq_bind, Option.bind_eq_some_iff] at found
  obtain ⟨rest, word, found⟩ := found
  rw [Text.dropStart?_eq_some_iff.1 word]
  obtain ⟨blanks, blank, front⟩ := Text.exists_blanks_trimStart rest
  split at found
  · rename_i text bare
    rw [bare] at front
    simp only [Option.bind_eq_some_iff] at found
    obtain ⟨⟨inside, after⟩, close, returns, read, same⟩ := found
    simp only [Option.pure_def, Option.some.injEq] at same
    subst same
    obtain ⟨k, rfl, balanced, closes⟩ := untilClose?_eq_some_iff.1 close
    exact ⟨blanks, inside, k, after, blank, by rw [front], balanced, closes, rfl, read⟩
  · cases found

/-- The type of an entry of a record stands at its end, behind a key and a colon. -/
theorem Field.read_eq_keyed {entry type : List Char} {key : String}
    (found : Field.read entry = .keyed key (some type)) :
    ∃ word blanks blanks', (∀ c ∈ word, Text.isNameChar c = true) ∧
      (∀ c ∈ blanks, Text.isBlank c = true) ∧ (∀ c ∈ blanks', Text.isBlank c = true) ∧
      entry = word ++ (blanks ++ ':' :: (blanks' ++ type)) := by
  unfold Field.read at found
  simp only at found
  split at found
  · cases found
  · split at found
    · cases found
    · rename_i c rest bare
      split at found
      · rename_i typed
        cases found
        obtain ⟨blanks, blank, front⟩ :=
          Text.exists_blanks_trimStart (entry.dropWhile Text.isNameChar)
        obtain ⟨blanks', blank', front'⟩ := Text.exists_blanks_trimStart rest
        rw [bare, typed.1] at front
        refine ⟨entry.takeWhile Text.isNameChar, blanks, blanks',
          List.all_eq_true.1 List.all_takeWhile, blank, blank', ?_⟩
        rw [← front', ← front, List.takeWhile_append_dropWhile]
      · cases found

/-- An entry of a record keeps its key, or it is kept as it is. -/
theorem Field.read_eq (entry : List Char) :
    Field.read entry = .verbatim (String.ofList entry) ∨
      ∃ type, Field.read entry =
        .keyed (String.ofList (entry.takeWhile Text.isNameChar)) type := by
  unfold Field.read
  simp only
  split
  · exact Or.inl rfl
  · split
    · exact Or.inr ⟨none, rfl⟩
    · split
      · exact Or.inr ⟨some _, rfl⟩
      · exact Or.inl rfl

/-! ## Forms -/

/-- A text has a form, for what was found in it. -/
inductive Form.Cut (name : List Char) : Form → Prop
  | array {element : List Char} (found : elementOf? name = some element) : Cut name (.array element)
  | dictionary {base args key value : List Char} (found : cutGeneric? name = some (base, args))
      (pieces : splitOutside ',' args = [key, value]) : Cut name (.dictionary key value)
  | generic {base args : List Char} (found : cutGeneric? name = some (base, args)) :
      Cut name (.generic base (splitOutside ',' args))
  | function {signature : Signature (List Char)} (found : Signature.read? name = some signature) :
      Cut name (.function signature)
  | untypedArray (word : Form.isArrayWord name = true) : Cut name .untypedArray
  | union : Cut name (.union (splitOutside '|' name))
  | group {inner : List Char} (found : insideBrackets? '(' ')' name = some inner) :
      Cut name (.group inner)
  | record {inside : List Char} (found : insideBrackets? '\x7b' '\x7d' name = some inside) :
      Cut name (.record ((splitOutside ',' inside).map Field.read))
  | marked {inner : List Char} (found : withoutMark? name = some inner) : Cut name (.marked inner)
  | named (unmarked : withoutMark? name = none) : Cut name .named

/-- **Every text is cut by the form that it has.** -/
theorem Form.cut_of (name : List Char) : Form.Cut name (Form.of name) := by
  unfold Form.of
  split
  · rename_i element found
    exact .array found
  · split
    · rename_i base args found
      split
      · rename_i key value pieces
        split
        · exact .dictionary found pieces
        · rw [← pieces]
          exact .generic found
      · exact .generic found
    · split
      · rename_i signature found
        exact .function found
      · unfold Form.ofPlain
        split
        · rename_i word
          exact .untypedArray word
        · split
          · rename_i pieces
            rw [← pieces]
            exact .union
          · split
            · rename_i inner found
              exact .group found
            · split
              · rename_i inside found
                exact .record found
              · split
                · rename_i inner found
                  exact .marked found
                · rename_i unmarked
                  exact .named unmarked

/-! ## Reading -/

/-- **Induction over what is read.** A text that is not replaced is read from the parts of its form. -/
theorem read_induction (replacement? : String → Option String)
    {P : List Char → TypeExpr → Prop}
    (replaced : ∀ raw text, replacement? (String.ofList (Text.trim raw)) = some text →
      P raw (.replaced text))
    (formed : ∀ raw, replacement? (String.ofList (Text.trim raw)) = none →
      (∀ part ∈ (Form.of (Text.trim raw)).parts, P part (read replacement? part)) →
      P raw ((Form.of (Text.trim raw)).tree (read replacement?) (Text.trim raw)))
    (raw : List Char) : P raw (read replacement? raw) := by
  induction length : raw.length using Nat.strongRecOn generalizing raw with
  | ind n ih =>
    subst length
    rw [read_eq]
    cases found : replacement? (String.ofList (Text.trim raw)) with
    | some text => exact replaced raw text found
    | none =>
      refine formed raw found fun part mem => ih part.length ?_ part rfl
      exact Nat.lt_of_lt_of_le (Form.length_of_mem_parts mem) (Text.length_trim_le raw)

end Ambient.TypeExpr
