import Ambient.Proofs.TypeExpr.Names
/-!
# What the patterns of type expressions match

Each pattern of a type expression, on texts whose brackets nest: which parts it finds, and which
texts it leaves alone. Only the outline of a text matters here, not what it spells.

## Main definitions

* `TypeExpr.StartsWith`: a text split behind the word that it starts with.
* `TypeExpr.Form.Unclaimed`: a text that none of the first patterns takes.

## Main statements

* `TypeExpr.cutGeneric?_append_eq_none`: a nested text that something follows is no generic
  application, and nothing but a base may stand in front of the brackets of one.
* `TypeExpr.elementOf?_of_cutGeneric?`: of the generic applications, those of `Array` are arrays.
* `TypeExpr.Signature.read?_eq_none`: without the word `function` and a parenthesis there is no
  function type.
-/

namespace Ambient.TypeExpr

/-! ## Generic applications -/

theorem Nested.of_append {outside : Char → Prop} {p s : List Char}
    (plain : ∀ c ∈ p, isOpening c = false) (h : Nested outside (p ++ s)) : Nested outside s := by
  induction p with
  | nil => exact h
  | cons c p ih =>
    rw [List.forall_mem_cons] at plain
    rw [List.cons_append] at h
    generalize behind : p ++ s = text at h
    cases h with
    | plain _ _ _ tail =>
      rw [← behind] at tail
      exact ih plain.2 tail
    | wrap opening =>
      rw [plain.1] at opening
      cases opening

theorem isOpening_of_isBaseChar {c : Char} (h : isBaseChar c = true) : isOpening c = false := by
  cases opening : isOpening c with
  | false => rfl
  | true =>
    simp only [isOpening, Bool.or_eq_true, beq_iff_eq] at opening
    have none : isBaseChar c = false := by
      rcases opening with ((rfl | rfl) | rfl) | rfl <;> decide
    rw [h] at none
    cases none

/-- The base in front of the first `<`, without its dot. -/
def baseOf (before : List Char) : List Char :=
  (Text.dropFinish? ['.'] before).getD before

theorem mem_baseOf {before : List Char} {c : Char} (mem : c ∈ before) (noDot : c ≠ '.') :
    c ∈ baseOf before := by
  unfold baseOf
  cases cut : Text.dropFinish? ['.'] before with
  | none => exact mem
  | some base =>
    rw [Text.dropFinish?_eq_some_iff.1 cut, List.mem_append, List.mem_singleton] at mem
    exact mem.resolve_right noDot

/-- A generic application is cut at its first `<`. -/
theorem cutGeneric?_cut {before rest : List Char} (fresh : '<' ∉ before) :
    cutGeneric? (before ++ '<' :: rest) =
      if (baseOf before).isEmpty || !(baseOf before).all isBaseChar then none
      else
        (untilClose? 0 '<' rest).bind fun found =>
          if found.2.isEmpty then some (baseOf before, found.1) else none := by
  have other : ∀ c ∈ before, (c != '<') = true := by
    intro c mem
    rw [bne_iff_ne]
    rintro rfl
    exact fresh mem
  have taken := Text.takeWhile_word other (c := '<') rfl rest
  have dropped := Text.dropWhile_word other (c := '<') rfl rest
  simp only [cutGeneric?, baseOf, taken, dropped]
  cases untilClose? 0 '<' rest with
  | none => rfl
  | some found =>
    obtain ⟨args, after⟩ := found
    cases after <;> rfl

theorem cutGeneric?_eq_none_of_not_mem {name : List Char} (fresh : '<' ∉ name) :
    cutGeneric? name = none := by
  have other : ∀ c ∈ name, (c != '<') = true := by
    intro c mem
    rw [bne_iff_ne]
    rintro rfl
    exact fresh mem
  have dropped : (name ++ []).dropWhile (fun c => c != '<') = [] :=
    List.dropWhile_append_of_pos other
  rw [List.append_nil] at dropped
  unfold cutGeneric?
  rw [dropped]

theorem cutGeneric?_eq_none_of_mem {before rest : List Char} {c : Char} (fresh : '<' ∉ before)
    (mem : c ∈ before) (bad : isBaseChar c = false) :
    cutGeneric? (before ++ '<' :: rest) = none := by
  have noDot : c ≠ '.' := by
    rintro rfl
    cases bad
  have kept := mem_baseOf mem noDot
  have broken : (baseOf before).all isBaseChar = false := by
    rw [List.all_eq_false]
    exact ⟨c, kept, by simp [bad]⟩
  rw [cutGeneric?_cut fresh, broken]
  simp

/-- **A nested text that something follows is no generic application.** Its first `<` is closed
before the end, or else what follows stands in front of that `<` and is no base. -/
theorem cutGeneric?_append_eq_none {outside : Char → Prop} {s t : List Char} {c : Char}
    (h : Nested outside s) (next : t.head? = some c) (bad : isBaseChar c = false) (angle : c ≠ '<') :
    cutGeneric? (s ++ t) = none := by
  obtain ⟨t, rfl⟩ : ∃ t', t = c :: t' := by
    cases t with
    | nil => cases next
    | cons d t =>
      cases next
      exact ⟨t, rfl⟩
  by_cases mem : '<' ∈ s
  · obtain ⟨before, rest, rfl, fresh⟩ := List.eq_append_cons_of_mem mem
    rw [List.append_assoc, List.cons_append]
    by_cases base : ∀ d ∈ before, isBaseChar d = true
    · have inner := h.of_append fun d mem => isOpening_of_isBaseChar (base d mem)
      cases inner with
      | plain opening => cases opening
      | wrap opening closing noArrow inside tail =>
        rw [cutGeneric?_cut fresh, List.append_assoc, List.cons_append,
          inside.untilClose?_close opening closing noArrow]
        simp
    · obtain ⟨d, mem, bad⟩ : ∃ d ∈ before, isBaseChar d = false := by
        simpa using base
      exact cutGeneric?_eq_none_of_mem fresh mem bad
  · by_cases later : '<' ∈ t
    · obtain ⟨before, rest, rfl, fresh⟩ := List.eq_append_cons_of_mem later
      have fresh : '<' ∉ s ++ c :: before := by
        rw [List.mem_append, List.mem_cons]
        rintro (inside | same | inside)
        · exact mem inside
        · exact angle same.symm
        · exact fresh inside
      have cut : cutGeneric? ((s ++ c :: before) ++ '<' :: rest) = none :=
        cutGeneric?_eq_none_of_mem fresh (List.mem_append_right s List.mem_cons_self) bad
      rwa [List.append_assoc, List.cons_append] at cut
    · refine cutGeneric?_eq_none_of_not_mem ?_
      rw [List.mem_append, List.mem_cons]
      rintro (inside | same | inside)
      · exact mem inside
      · exact angle same.symm
      · exact later inside

/-- A bar outside of brackets stands behind the base of no generic application. -/
theorem cutGeneric?_bar {outside : Char → Prop} {s : List Char} (nested : Nested outside s)
    (n : Nat) (rest : List Char) : cutGeneric? (s ++ (Text.pad n ++ '|' :: rest)) = none := by
  cases n with
  | zero => exact cutGeneric?_append_eq_none nested rfl rfl (by decide)
  | succ n => exact cutGeneric?_append_eq_none nested rfl rfl (by decide)

/-- The base of a path is the path, with a dot behind it or not. -/
theorem baseOf_path {base : List Char} (path : IsPath base) (dot : List Char)
    (optional : dot = [] ∨ dot = ['.']) : baseOf (base ++ dot) = base := by
  unfold baseOf
  rcases optional with rfl | rfl
  · obtain ⟨c, last, word⟩ := path.last
    have noDot : base.getLast? ≠ some '.' := by
      rw [last]
      rintro same
      cases same
      cases word
    have kept : Text.dropFinish? ([] ++ ['.']) base = none := Text.dropFinish?_eq_none_of_last noDot
    rw [List.nil_append] at kept
    rw [List.append_nil, kept]
    rfl
  · rw [Text.dropFinish?_append]
    rfl

/-! ## Arrays -/

theorem elementOf?_eq_none {name : List Char} (noBracket : name.getLast? ≠ some ']')
    (noGeneric : cutGeneric? name = none) : elementOf? name = none := by
  have kept : Text.dropFinish? (['['] ++ [']']) name = none :=
    Text.dropFinish?_eq_none_of_last noBracket
  rw [List.singleton_append] at kept
  unfold elementOf?
  rw [noGeneric, kept]
  rfl

/-- `Array.<T>` is an array, other generic applications are none. -/
theorem elementOf?_of_cutGeneric? {name base args : List Char} (noBracket : name.getLast? ≠ some ']')
    (generic : cutGeneric? name = some (base, args)) :
    elementOf? name = if base = "Array".toList then some args else none := by
  have kept : Text.dropFinish? (['['] ++ [']']) name = none :=
    Text.dropFinish?_eq_none_of_last noBracket
  rw [List.singleton_append] at kept
  unfold elementOf?
  rw [generic, kept]
  rfl

/-! ## Starting words -/

/-- A text split behind the word that it starts with, which may be empty. -/
structure StartsWith (s word rest : List Char) : Prop where
  whole : s = word ++ rest
  chars : ∀ c ∈ word, isWordChar c = true
  next : ∀ c, rest.head? = some c → Text.isNameChar c = false

namespace StartsWith

variable {s word rest : List Char}

theorem takeWhile_eq (h : StartsWith s word rest) : s.takeWhile Text.isNameChar = word := by
  have stop : rest.takeWhile Text.isNameChar = [] := by
    cases rest with
    | nil => rfl
    | cons c rest => simp [h.next c rfl]
  rw [h.whole, List.takeWhile_append_of_pos fun c mem => isNameChar_of_isWordChar (h.chars c mem),
    stop, List.append_nil]

theorem dropWhile_eq (h : StartsWith s word rest) : s.dropWhile Text.isNameChar = rest := by
  rw [h.whole, List.dropWhile_append_of_pos fun c mem => isNameChar_of_isWordChar (h.chars c mem)]
  cases rest with
  | nil => rfl
  | cons c rest => simp [h.next c rfl]

end StartsWith

/-! ## Function types -/

theorem readReturns?_eq_none {c : Char} {text : List Char} (tight : Text.Tight (c :: text))
    (noColon : c ≠ ':') (before : Nat) : readReturns? (Text.pad before ++ c :: text) = none := by
  have bare := tight.trim_pad before 0
  rw [Text.pad_zero, List.append_nil] at bare
  unfold readReturns?
  rw [bare]
  simp [noColon]

/-- The return type stands behind a colon. -/
theorem readReturns?_colon {type : List Char} (tight : Text.Tight type) (before after : Nat) :
    readReturns? (Text.pad before ++ ':' :: (Text.pad after ++ type)) = some (some type) := by
  have whole : Text.Tight (':' :: (Text.pad after ++ type)) := by
    obtain ⟨c, last, solid⟩ := tight.last
    exact ⟨⟨':', rfl, rfl⟩, ⟨c, Text.getLast?_spaced last [] ':' after, solid⟩⟩
  have bare := whole.trim_pad before 0
  have inner := tight.trim_pad after 0
  rw [Text.pad_zero, List.append_nil] at bare inner
  unfold readReturns?
  rw [bare]
  simp only [ne_eq, not_true_eq_false, ↓reduceIte]
  rw [inner]
  cases type with
  | nil => cases tight.ne_nil rfl
  | cons c type => rfl

/-- No parenthesis stands behind the word `function`: no function type. -/
theorem Signature.read?_eq_none {s word rest : List Char} (starts : StartsWith s word rest)
    (noCall : word = [] ∨ (Text.trimStart rest).head? ≠ some '(') : Signature.read? s = none := by
  have letters : "function".toList.all Text.isNameChar = true := by decide
  have blocked : ∀ tail, Text.dropStart? "function".toList s = some tail →
      (Text.trimStart tail).head? ≠ some '(' := by
    intro tail found
    have whole := starts.whole
    rw [Text.dropStart?_eq_some_iff.1 found] at whole
    rcases List.append_eq_append_iff.1 whole with ⟨more, same, rfl⟩ | ⟨more, same, same'⟩
    · -- The word goes on behind `function`, or it ends there.
      cases more with
      | nil =>
        refine noCall.resolve_left ?_
        rintro rfl
        cases same
      | cons c more =>
        have word := starts.chars c (by rw [same]; simp)
        have solid := isBlank_of_isPathChar (isPathChar_of_isWordChar word)
        rw [List.cons_append, Text.trimStart_eq_self rfl solid, List.head?_cons]
        rintro first
        cases first
        cases word
    · -- The word ends inside of `function`, or right behind it.
      cases more with
      | nil =>
        rw [List.nil_append] at same'
        rw [← same']
        refine noCall.resolve_left ?_
        rintro rfl
        cases same
      | cons c more =>
        have next := starts.next c (by rw [same']; rfl)
        rw [List.all_eq_true.1 letters c (by rw [same]; simp)] at next
        cases next
  unfold Signature.read?
  cases found : Text.dropStart? "function".toList s with
  | none => rfl
  | some tail =>
    have noParenthesis := blocked tail found
    simp only [Option.bind_eq_bind, Option.bind_some]
    split
    · rename_i bare
      rw [bare] at noParenthesis
      cases noParenthesis rfl
    · rfl

/-- A colon right behind the first word would make an entry of a function type a binding. -/
theorem bindsContext_eq_false {entry word rest : List Char} (bare : Text.trimStart entry = entry)
    (starts : StartsWith entry word rest) (noColon : (Text.trimStart rest).head? ≠ some ':') :
    bindsContext entry = false := by
  have stop : Text.dropStart? [':'] (Text.trimStart rest) = none :=
    Text.dropStart?_eq_none_of_head noColon
  unfold bindsContext
  simp only [bare, starts.dropWhile_eq, stop, Option.isSome_none, Bool.and_false]

/-! ## Brackets around the whole -/

/-- A pair of brackets around a nested text is found. -/
theorem insideBrackets?_wrapped {outside : Char → Prop} {o k : Char} {inner : List Char}
    (nested : Nested outside inner) (opening : isOpening o = true) (closing : isClosing k = true)
    (noAngle : k ≠ '>') : insideBrackets? o k (o :: (inner ++ [k])) = some inner := by
  have found := nested.untilClose?_close opening closing (fun angle => absurd angle noAngle) []
  simp [insideBrackets?, found]

theorem insideBrackets?_eq_none_of_head {o k c : Char} {rest : List Char} (other : c ≠ o) :
    insideBrackets? o k (c :: rest) = none := by
  simp [insideBrackets?, other]

theorem insideBrackets?_eq_none_of_last {o k : Char} {name : List Char}
    (other : name.getLast? ≠ some k) : insideBrackets? o k name = none := by
  cases name with
  | nil => rfl
  | cons c rest =>
    have rest : rest.getLast? ≠ some k := by
      intro last
      rw [List.getLast?_cons, last] at other
      exact other rfl
    simp [insideBrackets?, rest]

/-! ## Marks -/

theorem hasTwoBytes_of_length {name : List Char} (long : 2 ≤ name.length) :
    hasTwoBytes name = true := by
  match name, long with
  | _ :: _ :: _, _ => rfl

theorem withoutMark?_optional {inner : List Char} (filled : inner ≠ []) :
    withoutMark? ('?' :: inner) = some inner := by
  have long := hasTwoBytes_of_length (Text.two_le_length_cons filled '?')
  simp [withoutMark?, long, Text.dropStart?]

theorem withoutMark?_required {inner : List Char} (filled : inner ≠ []) :
    withoutMark? ('!' :: inner) = some inner := by
  have long := hasTwoBytes_of_length (Text.two_le_length_cons filled '!')
  simp [withoutMark?, long, Text.dropStart?]

/-- The mark at the end is taken away if there is none in front. -/
theorem withoutMark?_equals {inner : List Char} (tight : Text.Tight inner)
    (noOptional : inner.head? ≠ some '?') (noRequired : inner.head? ≠ some '!') :
    withoutMark? (inner ++ ['=']) = some inner := by
  have long := hasTwoBytes_of_length (Text.two_le_length_concat tight.ne_nil '=')
  have head := tight.head?_append ['=']
  have first : Text.dropStart? ['?'] (inner ++ ['=']) = none :=
    Text.dropStart?_eq_none_of_head (head ▸ noOptional)
  have second : Text.dropStart? ['!'] (inner ++ ['=']) = none :=
    Text.dropStart?_eq_none_of_head (head ▸ noRequired)
  simp [withoutMark?, long, first, second, Text.dropFinish?_append]

/-- A name has no mark. -/
theorem withoutMark?_eq_none {name : List Char} (noOptional : name.head? ≠ some '?')
    (noRequired : name.head? ≠ some '!') (noEquals : name.getLast? ≠ some '=') :
    withoutMark? name = none := by
  have first : Text.dropStart? ['?'] name = none := Text.dropStart?_eq_none_of_head noOptional
  have second : Text.dropStart? ['!'] name = none := Text.dropStart?_eq_none_of_head noRequired
  have third : Text.dropFinish? ([] ++ ['=']) name = none :=
    Text.dropFinish?_eq_none_of_last noEquals
  rw [List.nil_append] at third
  unfold withoutMark?
  rw [first, second, third]
  simp

/-! ## Marks of arguments -/

theorem withoutRestMark_eq_self {s : List Char} (tight : Text.Tight s)
    (noDots : s.head? ≠ some '.') : withoutRestMark s = (s, false) := by
  have kept : Text.dropStart? ['.', '.', '.'] s = none := Text.dropStart?_eq_none_of_head noDots
  unfold withoutRestMark
  simp only [tight.trim_eq, kept]

/-- The mark of a rest argument is taken off. -/
theorem withoutRestMark_dots {s : List Char} (tight : Text.Tight s) :
    withoutRestMark (['.', '.', '.'] ++ s) = (s, true) := by
  have dots : Text.Tight (['.', '.', '.'] ++ s) :=
    Text.Tight.append ⟨⟨'.', rfl, rfl⟩, ⟨'.', rfl, rfl⟩⟩ tight
  unfold withoutRestMark
  simp only [dots.trim_eq, Text.dropStart?_append, tight.trim_eq]

theorem withoutOptionalMark_eq_self {s : List Char} (tight : Text.Tight s)
    (noMark : s.head? ≠ some '?') (noEquals : s.getLast? ≠ some '=') :
    withoutOptionalMark s = (s, false) := by
  have first : Text.dropStart? ['?'] s = none := Text.dropStart?_eq_none_of_head noMark
  have last : Text.dropFinish? ([] ++ ['=']) s = none := Text.dropFinish?_eq_none_of_last noEquals
  rw [List.nil_append] at last
  unfold withoutOptionalMark
  simp only [tight.trim_eq, first, last]
  split <;> rfl

/-- `?` in front of a type is taken off, and an equals sign behind it stays. -/
theorem withoutOptionalMark_cons {s : List Char} (tight : Text.Tight s) :
    withoutOptionalMark ('?' :: s) = (s, true) := by
  have whole : Text.Tight ('?' :: s) := Text.Tight.append (s := ['?'])
    ⟨⟨'?', rfl, rfl⟩, ⟨'?', rfl, rfl⟩⟩ tight
  have long := hasTwoBytes_of_length (Text.two_le_length_cons tight.ne_nil '?')
  unfold withoutOptionalMark
  simp only [whole.trim_eq, long]
  simp [Text.dropStart?, tight.trim_eq]

/-- Without `?` in front, the equals sign is what is taken off. -/
theorem withoutOptionalMark_concat {s : List Char} (tight : Text.Tight s)
    (noMark : s.head? ≠ some '?') : withoutOptionalMark (s ++ ['=']) = (s, true) := by
  have whole : Text.Tight (s ++ ['=']) := tight.append ⟨⟨'=', rfl, rfl⟩, ⟨'=', rfl, rfl⟩⟩
  have long := hasTwoBytes_of_length (Text.two_le_length_concat tight.ne_nil '=')
  have first : Text.dropStart? ['?'] (s ++ ['=']) = none := by
    refine Text.dropStart?_eq_none_of_head ?_
    rwa [tight.head?_append]
  unfold withoutOptionalMark
  simp only [whole.trim_eq, long, first, Text.dropFinish?_append, tight.trim_eq]
  rfl

/-! ## Pieces -/

/-- A text without separators is one piece. -/
theorem splitOutside_single {separator : Char} {s : List Char} (nested : Nested (· ≠ separator) s)
    (tight : Text.Tight s) (opening : isOpening separator = false)
    (closing : isClosing separator = false) (noSpace : ' ' ≠ separator) :
    splitOutside separator s = [s] := by
  refine (Joined.single s).splitOutside_eq ?_ ?_ opening closing noSpace
  · rwa [List.forall_mem_singleton]
  · rwa [List.forall_mem_singleton]

/-- A key and a type with a colon between them are an entry of a record. -/
theorem Field.read_keyed {key type : List Char} (identifier : IsAsciiIdentifier key)
    (tight : Text.Tight type) (oneLine : '\n' ∉ type) (before after : Nat) :
    Field.read (key ++ Text.pad before ++ ':' :: (Text.pad after ++ type)) =
      .keyed (String.ofList key) (some type) := by
  have starts : StartsWith (key ++ Text.pad before ++ ':' :: (Text.pad after ++ type)) key
      (Text.pad before ++ ':' :: (Text.pad after ++ type)) := by
    refine ⟨List.append_assoc _ _ _, identifier.isWordChar_of_mem, ?_⟩
    intro c first
    cases before with
    | zero =>
      cases first
      decide
    | succ n =>
      cases first
      decide
  have colon : Text.trimStart (Text.pad before ++ ':' :: (Text.pad after ++ type)) =
      ':' :: (Text.pad after ++ type) := by
    rw [Text.trimStart_append fun _ => Text.isBlank_of_mem_pad,
      Text.trimStart_eq_self rfl rfl]
  have bare : Text.trimStart (Text.pad after ++ type) = type := by
    obtain ⟨c, first, solid⟩ := tight.first
    rw [Text.trimStart_append fun _ => Text.isBlank_of_mem_pad, Text.trimStart_eq_self first solid]
  have filled : key.isEmpty = false := by
    rw [List.isEmpty_eq_false_iff]
    exact identifier.ne_nil
  have filled' : type.isEmpty = false := by
    rw [List.isEmpty_eq_false_iff]
    exact tight.ne_nil
  have oneLine : type.contains '\n' = false := by
    simpa using oneLine
  unfold Field.read
  simp only [starts.takeWhile_eq, starts.dropWhile_eq, colon, bare, filled, filled', oneLine]
  simp

/-- A key alone is an entry of a record. -/
theorem Field.read_bare {key : List Char} (identifier : IsAsciiIdentifier key) :
    Field.read key = .keyed (String.ofList key) none := by
  have starts : StartsWith key key [] :=
    ⟨(List.append_nil key).symm, identifier.isWordChar_of_mem, fun c first => nomatch first⟩
  have filled : key.isEmpty = false := by
    rw [List.isEmpty_eq_false_iff]
    exact identifier.ne_nil
  unfold Field.read
  simp only [starts.takeWhile_eq, starts.dropWhile_eq, filled]
  rfl

/-! ## Forms -/

namespace Form

variable {name : List Char}

theorem of_array {element : List Char} (found : elementOf? name = some element) :
    Form.of name = .array element := by
  unfold Form.of
  rw [found]

theorem of_dictionary {args key value : List Char} (noElement : elementOf? name = none)
    (generic : cutGeneric? name = some ("Object".toList, args))
    (pieces : splitOutside ',' args = [key, value]) : Form.of name = .dictionary key value := by
  unfold Form.of
  simp only [noElement, generic, pieces, ↓reduceIte]

/-- Only `Object` with two arguments is a dictionary. -/
theorem of_generic_of_length {base args : List Char} (noElement : elementOf? name = none)
    (generic : cutGeneric? name = some (base, args))
    (noDictionary : base = "Object".toList → (splitOutside ',' args).length ≠ 2) :
    Form.of name = .generic base (splitOutside ',' args) := by
  unfold Form.of
  simp only [noElement, generic]
  split
  · rename_i key value pieces
    rw [if_neg fun same => noDictionary same (by rw [pieces]; rfl), pieces]
  · rfl

theorem of_generic {base args : List Char} (noElement : elementOf? name = none)
    (generic : cutGeneric? name = some (base, args)) (noObject : base ≠ "Object".toList) :
    Form.of name = .generic base (splitOutside ',' args) :=
  of_generic_of_length noElement generic fun same => absurd same noObject

theorem of_function {signature : Signature (List Char)} (noElement : elementOf? name = none)
    (noGeneric : cutGeneric? name = none) (found : Signature.read? name = some signature) :
    Form.of name = .function signature := by
  unfold Form.of
  simp only [noElement, noGeneric, found]

theorem of_untypedArray (noElement : elementOf? name = none) (noGeneric : cutGeneric? name = none)
    (noFunction : Signature.read? name = none) (word : isArrayWord name = true) :
    Form.of name = .untypedArray := by
  unfold Form.of Form.ofPlain
  simp only [noElement, noGeneric, noFunction, word, if_true]

/-- A text that none of the first patterns takes. -/
structure Unclaimed (name : List Char) : Prop where
  noElement : elementOf? name = none
  noGeneric : cutGeneric? name = none
  noFunction : Signature.read? name = none
  noArray : isArrayWord name = false

namespace Unclaimed

variable (h : Unclaimed name)

include h

theorem of_union {first second : List Char} {rest : List (List Char)}
    (pieces : splitOutside '|' name = first :: second :: rest) :
    Form.of name = .union (first :: second :: rest) := by
  unfold Form.of Form.ofPlain
  simp only [h.noElement, h.noGeneric, h.noFunction, h.noArray, pieces]
  rfl

variable (single : splitOutside '|' name = [name])

include single

theorem of_group {inner : List Char} (found : insideBrackets? '(' ')' name = some inner) :
    Form.of name = .group inner := by
  unfold Form.of Form.ofPlain
  simp only [h.noElement, h.noGeneric, h.noFunction, h.noArray, single, found]
  rfl

theorem of_record {inside : List Char} (noGroup : insideBrackets? '(' ')' name = none)
    (found : insideBrackets? '\x7b' '\x7d' name = some inside) :
    Form.of name = .record ((splitOutside ',' inside).map Field.read) := by
  unfold Form.of Form.ofPlain
  simp only [h.noElement, h.noGeneric, h.noFunction, h.noArray, single, noGroup, found]
  rfl

theorem of_marked {inner : List Char} (noGroup : insideBrackets? '(' ')' name = none)
    (noRecord : insideBrackets? '\x7b' '\x7d' name = none)
    (found : withoutMark? name = some inner) : Form.of name = .marked inner := by
  unfold Form.of Form.ofPlain
  simp only [h.noElement, h.noGeneric, h.noFunction, h.noArray, single, noGroup, noRecord, found]
  rfl

theorem of_named (noGroup : insideBrackets? '(' ')' name = none)
    (noRecord : insideBrackets? '\x7b' '\x7d' name = none)
    (noMark : withoutMark? name = none) : Form.of name = .named := by
  unfold Form.of Form.ofPlain
  simp only [h.noElement, h.noGeneric, h.noFunction, h.noArray, single, noGroup, noRecord, noMark]
  rfl

end Unclaimed

end Form

end Ambient.TypeExpr
