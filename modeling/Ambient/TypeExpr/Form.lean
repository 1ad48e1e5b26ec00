import Ambient.TypeExpr.Signature
/-!
# Forms of type expressions

A raw type expression is taken apart by the first pattern that it matches. The patterns overlap, so
their order matters: arrays, dictionaries, other generic applications, function types, the bare word
`array`, unions, groups, records, marks, and at last plain names.

## Main definitions

* `TypeExpr.cutGeneric?`: base and arguments of `Base.<A, B>` or `Base<A, B>`.
* `TypeExpr.Form`: a pattern with the texts of its parts.
* `TypeExpr.Form.of`: the first pattern that a trimmed text matches.
* `TypeExpr.Form.parts`: the texts that are type expressions of their own.

## Main statements

* `TypeExpr.Form.length_of_mem_parts`: every part is shorter than the whole.
-/

namespace Ambient.TypeExpr

/-- A character of the base of a generic application. -/
def isBaseChar (c : Char) : Bool :=
  Text.isNameChar c || c == '.' || c == ':' || c == '/' || c == '~' || c == '#' || c == '-'

/-- The base and the argument text of a generic application that spans the whole text. The base may
be followed by a dot. -/
def cutGeneric? (name : List Char) : Option (List Char × List Char) :=
  let before := name.takeWhile fun c => c != '<'
  let base := (Text.dropFinish? ['.'] before).getD before
  match name.dropWhile fun c => c != '<' with
  | [] => none
  | _ :: rest =>
    if base.isEmpty || !base.all isBaseChar then none
    else
      match untilClose? 0 '<' rest with
      | some (args, []) => some (base, args)
      | _ => none

/-- The element text of an array type, `Array.<T>` or `T[]`. -/
def elementOf? (name : List Char) : Option (List Char) :=
  let element := (Text.dropFinish? ['[', ']'] name).filter fun element =>
    !(Text.trim element).isEmpty
  match cutGeneric? name with
  | some (base, args) => if base = "Array".toList then some args else element
  | none => element

/-- The text inside a pair of brackets that wraps the whole text. -/
def insideBrackets? (opening closing : Char) : List Char → Option (List Char)
  | [] => none
  | c :: rest =>
    if c = opening ∧ rest.getLast? = some closing then
      match untilClose? 0 c rest with
      | some (inside, []) => some inside
      | _ => none
    else none

/-- A type without its nullability mark in front or its optionality mark at the end. -/
def withoutMark? (name : List Char) : Option (List Char) :=
  if !hasTwoBytes name then none
  else
    match Text.dropStart? ['?'] name with
    | some rest => some rest
    | none =>
      match Text.dropStart? ['!'] name with
      | some rest => some rest
      | none => Text.dropFinish? ['='] name

/-- One entry of a record type. -/
inductive Field (τ : Type)
  /-- `key: T`, or `key` alone. -/
  | keyed (key : String) (type : Option τ)
  /-- An entry of no known form, kept as it is. -/
  | verbatim (text : String)
  deriving DecidableEq, Repr

/-- Read a trimmed entry of a record type. The type ends at the end of the entry and may not span
lines. -/
def Field.read (entry : List Char) : Field (List Char) :=
  let key := entry.takeWhile Text.isNameChar
  let rest := Text.trimStart (entry.dropWhile Text.isNameChar)
  if key.isEmpty then .verbatim (String.ofList entry)
  else
    match rest with
    | [] => .keyed (String.ofList key) none
    | c :: rest =>
      let type := Text.trimStart rest
      if c = ':' ∧ !type.isEmpty ∧ !type.contains '\n' then
        .keyed (String.ofList key) (some type)
      else .verbatim (String.ofList entry)

/-- The type texts of an entry. -/
def Field.parts {τ : Type} : Field τ → List τ
  | .keyed _ (some type) => [type]
  | .keyed _ none => []
  | .verbatim _ => []

/-- A pattern of type expressions, with the texts of its parts. -/
inductive Form
  /-- `Array.<T>` or `T[]`. -/
  | array (element : List Char)
  /-- `Object.<K, V>`. -/
  | dictionary (key value : List Char)
  /-- `Base.<A, B>`. -/
  | generic (base : List Char) (args : List (List Char))
  /-- `function(A, B): R`. -/
  | function (signature : Signature (List Char))
  /-- The bare word `array`. -/
  | untypedArray
  /-- `A|B`. -/
  | union (members : List (List Char))
  /-- `(T)`. -/
  | group (inner : List Char)
  /-- A record in braces. -/
  | record (fields : List (Field (List Char)))
  /-- `?T`, `!T` or `T=`. -/
  | marked (inner : List Char)
  /-- Anything else: a plain name. -/
  | named

namespace Form

/-- The word `array` in any case of its letters. -/
def isArrayWord (name : List Char) : Bool :=
  name.map Char.toLower == "array".toList

/-- The form of a text that is neither array nor generic nor function type. -/
def ofPlain (name : List Char) : Form :=
  if isArrayWord name then .untypedArray
  else
    match splitOutside '|' name with
    | first :: second :: rest => .union (first :: second :: rest)
    | _ =>
      match insideBrackets? '(' ')' name with
      | some inner => .group inner
      | none =>
        match insideBrackets? '\x7b' '\x7d' name with
        | some inside => .record ((splitOutside ',' inside).map Field.read)
        | none =>
          match withoutMark? name with
          | some inner => .marked inner
          | none => .named

/-- The first pattern that a trimmed text matches. -/
def of (name : List Char) : Form :=
  match elementOf? name with
  | some element => .array element
  | none =>
    match cutGeneric? name with
    | some (base, args) =>
      match splitOutside ',' args with
      | [key, value] =>
        if base = "Object".toList then .dictionary key value else .generic base [key, value]
      | parts => .generic base parts
    | none =>
      match Signature.read? name with
      | some signature => .function signature
      | none => ofPlain name

/-- The texts that are type expressions of their own. -/
def parts : Form → List (List Char)
  | .array element => [element]
  | .dictionary key value => [key, value]
  | .generic base args => base :: args
  | .function signature => signature.arguments.map Argument.type ++ signature.returns.toList
  | .untypedArray => []
  | .union members => members
  | .group inner => [inner]
  | .record fields => fields.flatMap Field.parts
  | .marked inner => [inner]
  | .named => []

end Form

/-! ## Lengths -/

theorem length_cutGeneric? {name base args : List Char}
    (h : cutGeneric? name = some (base, args)) :
    base.length + args.length + 2 ≤ name.length := by
  unfold cutGeneric? at h
  simp only at h
  have whole : (name.takeWhile fun c => c != '<').length +
      (name.dropWhile fun c => c != '<').length = name.length := by
    rw [← List.length_append, List.takeWhile_append_dropWhile]
  split at h
  · simp at h
  · rename_i c rest found
    rw [found] at whole
    split at h
    · simp at h
    · split at h
      · rename_i args' close
        have inside := length_untilClose? close
        simp only [Option.some.injEq, Prod.mk.injEq] at h
        obtain ⟨rfl, rfl⟩ := h
        have bare : ((Text.dropFinish? ['.'] (name.takeWhile fun c => c != '<')).getD
            (name.takeWhile fun c => c != '<')).length ≤
            (name.takeWhile fun c => c != '<').length := by
          cases cut : Text.dropFinish? ['.'] (name.takeWhile fun c => c != '<') with
          | none => simp
          | some before =>
            have shorter := length_dropFinish? cut
            simp only [Option.getD_some]; omega
        simp only [List.length_cons, List.length_nil] at whole inside
        omega
      · simp at h

theorem length_elementOf? {name element : List Char}
    (h : elementOf? name = some element) : element.length < name.length := by
  have direct : ∀ {e : List Char}, ((Text.dropFinish? ['[', ']'] name).filter fun element =>
      !(Text.trim element).isEmpty) = some e → e.length < name.length := by
    intro e he
    have shorter := length_dropFinish? (Option.filter_eq_some_iff.1 he).1
    simp only [List.length_cons, List.length_nil] at shorter
    omega
  unfold elementOf? at h
  simp only at h
  split at h
  · rename_i base args found
    split at h
    · have inside := length_cutGeneric? found
      simp only [Option.some.injEq] at h
      subst h; omega
    · exact direct h
  · exact direct h

theorem length_insideBrackets? {opening closing : Char} {name inner : List Char}
    (h : insideBrackets? opening closing name = some inner) : inner.length < name.length := by
  unfold insideBrackets? at h
  split at h
  · simp at h
  · split at h
    · split at h
      · rename_i found
        have inside := length_untilClose? found
        simp only [Option.some.injEq] at h
        subst h
        simp only [List.length_cons]; omega
      · simp at h
    · simp at h

theorem length_withoutMark? {name inner : List Char} (h : withoutMark? name = some inner) :
    inner.length < name.length := by
  unfold withoutMark? at h
  split at h
  · simp at h
  · split at h
    · rename_i found
      have shorter := length_dropStart? found
      simp only [Option.some.injEq, List.length_cons, List.length_nil] at h shorter
      subst h; omega
    · split at h
      · rename_i found
        have shorter := length_dropStart? found
        simp only [Option.some.injEq, List.length_cons, List.length_nil] at h shorter
        subst h; omega
      · have shorter := length_dropFinish? h
        simp only [List.length_cons, List.length_nil] at shorter
        omega

theorem length_of_mem_parts_read {entry part : List Char} (h : part ∈ (Field.read entry).parts) :
    part.length ≤ entry.length := by
  have cut : (entry.dropWhile Text.isNameChar).length ≤ entry.length :=
    (List.dropWhile_sublist _).length_le
  have gap := Text.length_trimStart_le (entry.dropWhile Text.isNameChar)
  unfold Field.read at h
  simp only at h
  split at h
  · simp [Field.parts] at h
  · split at h
    · simp [Field.parts] at h
    · rename_i c rest found
      rw [found] at gap
      have inner := Text.length_trimStart_le rest
      split at h
      · simp only [Field.parts, List.mem_singleton] at h
        subst h
        simp only [List.length_cons] at gap
        omega
      · simp [Field.parts] at h

theorem Form.length_of_mem_parts_ofPlain {name part : List Char}
    (h : part ∈ (Form.ofPlain name).parts) : part.length < name.length := by
  unfold Form.ofPlain at h
  split at h
  · simp [Form.parts] at h
  · split at h
    · rename_i first second rest split
      have total := length_flatten_splitOutside_le '|' name
      have positive : ∀ piece ∈ first :: second :: rest, 0 < piece.length := by
        rw [← split]
        intro piece mem
        exact length_pos_of_mem_splitOutside mem
      have firstPositive := positive first (by simp)
      have secondPositive := positive second (by simp)
      rw [split] at total
      simp only [List.flatten_cons, List.length_append] at total
      simp only [Form.parts, List.mem_cons] at h
      rcases h with rfl | rfl | h
      · omega
      · omega
      · have inRest := length_le_of_mem_flatten h
        omega
    · split at h
      · rename_i inner found
        have shorter := length_insideBrackets? found
        simp only [Form.parts, List.mem_singleton] at h
        subst h; exact shorter
      · split at h
        · rename_i inside found
          have shorter := length_insideBrackets? found
          simp only [Form.parts, List.mem_flatMap, List.mem_map] at h
          obtain ⟨field, ⟨entry, mem, rfl⟩, h⟩ := h
          have inEntry := length_of_mem_parts_read h
          have inText := length_le_of_mem_splitOutside mem
          omega
        · split at h
          · rename_i inner found
            have shorter := length_withoutMark? found
            simp only [Form.parts, List.mem_singleton] at h
            subst h; exact shorter
          · simp [Form.parts] at h

/-- Every part is shorter than the whole. -/
theorem Form.length_of_mem_parts {name part : List Char} (h : part ∈ (Form.of name).parts) :
    part.length < name.length := by
  unfold Form.of at h
  split at h
  · rename_i element found
    simp only [Form.parts, List.mem_singleton] at h
    subst h
    exact length_elementOf? found
  · split at h
    · rename_i base args found
      have inside := length_cutGeneric? found
      have inArgs : ∀ piece ∈ splitOutside ',' args, piece.length ≤ args.length :=
        fun piece mem => length_le_of_mem_splitOutside mem
      have inGeneric : ∀ pieces, splitOutside ',' args = pieces →
          part ∈ base :: pieces → part.length < name.length := by
        rintro pieces rfl mem
        rcases List.mem_cons.1 mem with rfl | mem
        · omega
        · have inPiece := inArgs part mem
          omega
      split at h
      · rename_i key value pieces
        split at h
        · exact inGeneric _ pieces (List.mem_cons_of_mem base (by simpa [Form.parts] using h))
        · exact inGeneric _ pieces (by simpa [Form.parts] using h)
      · exact inGeneric _ rfl (by simpa [Form.parts] using h)
    · split at h
      · rename_i signature found
        have shorter := Signature.length_of_read? found
        simp only [Form.parts, List.mem_append, List.mem_map, Option.mem_toList] at h
        rcases h with ⟨argument, mem, rfl⟩ | h
        · exact shorter.1 argument mem
        · exact shorter.2 part h
      · exact Form.length_of_mem_parts_ofPlain h

end Ambient.TypeExpr
