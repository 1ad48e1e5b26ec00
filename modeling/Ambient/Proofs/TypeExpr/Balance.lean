import Ambient.Proofs.TypeExpr.Events
/-!
# Balanced texts are translated to balanced types

Brackets are counted without regard to their kind, and the `>` behind an equals sign does not count. So
a type that ends in an equals sign would hide the bracket that is printed behind it. If the equals signs
of a raw text stand where marks of optionality stand, then no part of the text starts with one, and the
only thing that can end in one is a mark that is taken off.

## Main definitions

* `TypeExpr.equalsPlaced`: where the equals signs of a text stand.
* `TypeExpr.Tidy`: balanced raw texts with their equals signs in place.
* `TypeExpr.Whole`: balanced texts that do not end in an equals sign.

## Main statements

* `TypeExpr.Tidy.parts`: the parts of a tidy text are tidy.
* `TypeExpr.whole_tree`: a tree whose parts are printed whole is printed whole.
* `Config.isBalanced_typeText`: the type of a tidy text is balanced.
-/

namespace Ambient

namespace TypeExpr

variable {s t before after : List Char} {depth : Nat} {previous c : Char}

/-! ## Balanced texts -/

theorem isBalanced_append (h : isBalanced s = true) (h' : isBalanced t = true) :
    isBalanced (s ++ t) = true := by
  unfold isBalanced at h ⊢
  rw [isBalancedFrom_append h]
  exact isBalancedFrom_of_isBalanced h' _

/-- A balanced text in a pair of brackets. -/
theorem isBalanced_wrap (h : isBalanced s = true) {o k : Char} (opening : isOpening o = true)
    (closes : role (s.getLastD o) k = .closes) : isBalanced (o :: (s ++ [k])) = true := by
  have inside := isBalancedFrom_append_add (isBalancedFrom_of_isBalanced h o) 1 [k]
  unfold isBalanced
  rw [isBalancedFrom_of_opens (role_opens opening _), inside, isBalancedFrom_of_closes closes]
  rfl

/-- Without the nested text at its end a text is as balanced as with it. -/
theorem isBalancedFrom_append_nested {outside : Char → Prop} (h : Nested outside t) (s : List Char)
    (depth : Nat) (previous : Char) :
    isBalancedFrom depth previous (s ++ t) = isBalancedFrom depth previous s := by
  induction s generalizing depth previous with
  | nil =>
    have whole := h.isBalancedFrom_append depth previous []
    rwa [List.append_nil] at whole
  | cons c s ih =>
    rw [List.cons_append]
    unfold isBalancedFrom
    simp only [ih]

/-! ## Equals signs -/

/-- A letter, a digit, an underscore, a dollar sign, an asterisk or a closing bracket. -/
def carriesEquals (c : Char) : Bool :=
  Text.isNameChar c || c == '*' || isClosing c

/-- Every equals sign of a text directly follows a character that carries one, and a comma, a closing
parenthesis or the end of the text directly follows it. -/
def equalsPlacedFrom (previous : Char) : List Char → Bool
  | [] => true
  | c :: text =>
    (c != '=' || carriesEquals previous && text.head?.all fun next => next == ',' || next == ')') &&
      equalsPlacedFrom c text

/-- `equalsPlacedFrom` at the start of a text, where no equals sign may stand. -/
def equalsPlaced (text : List Char) : Bool :=
  equalsPlacedFrom '\x00' text

theorem equalsPlacedFrom_cons : equalsPlacedFrom previous (c :: s) = true ↔
    (c = '=' → carriesEquals previous = true ∧
      ∀ next, s.head? = some next → next = ',' ∨ next = ')') ∧ equalsPlacedFrom c s = true := by
  simp [equalsPlacedFrom, imp_iff_not_or, Option.all_eq_true]

theorem equalsPlacedFrom_suffix (before : List Char)
    (placed : equalsPlacedFrom previous (before ++ s) = true) :
    equalsPlacedFrom (before.getLastD previous) s = true := by
  induction before generalizing previous with
  | nil => exact placed
  | cons c before ih =>
    rw [List.getLastD_cons]
    exact ih (equalsPlacedFrom_cons.1 placed).2

theorem equalsPlacedFrom_front (placed : equalsPlacedFrom previous (s ++ after) = true) :
    equalsPlacedFrom previous s = true := by
  induction s generalizing previous with
  | nil => rfl
  | cons c s ih =>
    rw [List.cons_append] at placed
    obtain ⟨place, tail⟩ := equalsPlacedFrom_cons.1 placed
    refine equalsPlacedFrom_cons.2 ⟨fun equals => ⟨(place equals).1, fun next first => ?_⟩, ih tail⟩
    refine (place equals).2 next ?_
    rw [List.head?_append, first]
    rfl

/-- Behind a character that carries no equals sign, none comes next. -/
theorem equalsPlaced_of_not_carriesEquals (noCarrier : carriesEquals previous = false)
    (placed : equalsPlacedFrom previous s = true) : equalsPlaced s = true := by
  cases s with
  | nil => rfl
  | cons c s =>
    obtain ⟨place, tail⟩ := equalsPlacedFrom_cons.1 placed
    refine equalsPlacedFrom_cons.2 ⟨fun equals => ?_, tail⟩
    have carrier := (place equals).1
    rw [noCarrier] at carrier
    cases carrier

/-- A character behind which a text may be cut: it carries no equals sign and is none itself. -/
structure IsEdge (c : Char) : Prop where
  opening : isOpening c = false
  closing : isClosing c = false
  noCarrier : carriesEquals c = false
  noEquals : c ≠ '='

theorem isEdge_of_isBlank (blank : Text.isBlank c = true) : IsEdge c := by
  have ne : ∀ {x : Char}, Text.isBlank x = false → c ≠ x := by
    rintro x solid rfl
    rw [solid] at blank
    cases blank
  have closing : isClosing c = false := by
    simp only [isClosing, Bool.or_eq_false_iff, beq_eq_false_iff_ne]
    exact ⟨⟨⟨ne rfl, ne rfl⟩, ne rfl⟩, ne rfl⟩
  refine ⟨?_, closing, ?_, ne rfl⟩
  · simp only [isOpening, Bool.or_eq_false_iff, beq_eq_false_iff_ne]
    exact ⟨⟨⟨ne rfl, ne rfl⟩, ne rfl⟩, ne rfl⟩
  · simp only [carriesEquals, Bool.or_eq_false_iff, beq_eq_false_iff_ne]
    exact ⟨⟨isNameChar_of_isBlank blank, ne rfl⟩, closing⟩

theorem nested_of_isBlank (blank : ∀ c ∈ s, Text.isBlank c = true) : Nested (fun _ => True) s :=
  .of_forall (fun c mem => (isEdge_of_isBlank (blank c mem)).opening)
    (fun c mem => (isEdge_of_isBlank (blank c mem)).closing) fun _ _ => trivial

theorem isBalanced_of_isBlank (blank : ∀ c ∈ s, Text.isBlank c = true) : isBalanced s = true :=
  (nested_of_isBlank blank).isBalanced

/-- An edge in front of a text does not matter. -/
theorem isBalanced_edge (edge : IsEdge c) (s : List Char) : isBalanced (c :: s) = isBalanced s := by
  unfold isBalanced
  rw [isBalancedFrom_of_plain (role_plain edge.opening edge.closing _),
    isBalancedFrom_congr edge.noEquals (show '\x00' ≠ '=' by decide)]

theorem isBalanced_behind_edges (edges : ∀ c ∈ before, IsEdge c) (s : List Char) :
    isBalanced (before ++ s) = isBalanced s := by
  induction before with
  | nil => rfl
  | cons c before ih =>
    rw [List.forall_mem_cons] at edges
    rw [List.cons_append, isBalanced_edge edges.1, ih edges.2]

/-- Trimming keeps a text as balanced as it is. -/
theorem isBalanced_trim (s : List Char) : isBalanced (Text.trim s) = isBalanced s := by
  obtain ⟨before, after, blank, blank', whole⟩ := Text.exists_blanks_trim s
  conv_rhs => rw [whole]
  rw [isBalanced_behind_edges fun c mem => isEdge_of_isBlank (blank c mem)]
  exact (isBalancedFrom_append_nested (nested_of_isBlank blank') _ 0 '\x00').symm

/-! ## Tidy texts -/

/-- A balanced text with its equals signs in place. -/
structure Tidy (s : List Char) : Prop where
  balanced : isBalanced s = true
  placed : equalsPlaced s = true

namespace Tidy

/-- A text without what follows it, which nests. -/
theorem front {outside : Char → Prop} (nested : Nested outside after) (h : Tidy (s ++ after)) :
    Tidy s where
  balanced := by
    have balanced := h.balanced
    unfold isBalanced at balanced ⊢
    rwa [isBalancedFrom_append_nested nested] at balanced
  placed := equalsPlacedFrom_front h.placed

/-- A text without the balanced text in front of it, up to an edge. -/
theorem behind (balanced : isBalanced before = true) (edge : IsEdge c)
    (h : Tidy (before ++ c :: s)) : Tidy s where
  balanced := by
    have whole := h.balanced
    unfold isBalanced at whole balanced ⊢
    rw [isBalancedFrom_append balanced,
      isBalancedFrom_of_plain (role_plain edge.opening edge.closing _),
      isBalancedFrom_congr edge.noEquals (show '\x00' ≠ '=' by decide)] at whole
    exact whole
  placed := by
    have placed := equalsPlacedFrom_suffix before h.placed
    exact equalsPlaced_of_not_carriesEquals edge.noCarrier (equalsPlacedFrom_cons.1 placed).2

/-- A text without the edge in front of it. -/
theorem tail (edge : IsEdge c) (h : Tidy (c :: s)) : Tidy s :=
  have front : Tidy ([] ++ c :: s) := h
  front.behind rfl edge

theorem behind_edges (edges : ∀ c ∈ before, IsEdge c) (h : Tidy (before ++ s)) : Tidy s := by
  induction before with
  | nil => exact h
  | cons c before ih =>
    rw [List.forall_mem_cons] at edges
    exact ih edges.2 (h.tail edges.1)

theorem trim (h : Tidy s) : Tidy (Text.trim s) := by
  obtain ⟨before, after, blank, blank', whole⟩ := Text.exists_blanks_trim s
  rw [whole] at h
  exact (h.behind_edges fun c mem => isEdge_of_isBlank (blank c mem)).front
    (nested_of_isBlank blank')

/-- The text inside a pair of brackets. -/
theorem inside {o : Char} (opening : isOpening o = true) (noCarrier : carriesEquals o = false)
    (balanced : isBalancedFrom 0 o s = true) (h : Tidy (before ++ o :: (s ++ after))) : Tidy s where
  balanced := by
    have noEquals : o ≠ '=' := by
      rintro rfl
      cases opening
    unfold isBalanced
    rwa [isBalancedFrom_congr noEquals (show '\x00' ≠ '=' by decide)] at balanced
  placed := by
    have placed := equalsPlacedFrom_suffix before h.placed
    exact equalsPlaced_of_not_carriesEquals noCarrier
      (equalsPlacedFrom_front (equalsPlacedFrom_cons.1 placed).2)

end Tidy

/-- The first piece of a text between separators has its equals signs in place like the text. -/
theorem equalsPlacedFrom_cutOutside (separator : Char) (depth : Int)
    (placed : equalsPlacedFrom previous s = true) :
    equalsPlacedFrom previous (cutOutside separator depth previous s).1 = true := by
  rw [← cutOutside_join separator depth previous s] at placed
  exact equalsPlacedFrom_front placed

/-- The further pieces have theirs in place as texts of their own. -/
theorem equalsPlaced_of_mem_cutOutside {separator : Char} (edge : IsEdge separator) {depth : Int}
    (placed : equalsPlacedFrom previous s = true) :
    ∀ piece ∈ (cutOutside separator depth previous s).2, equalsPlaced piece = true := by
  induction s generalizing depth previous with
  | nil => exact fun piece mem => absurd mem List.not_mem_nil
  | cons c s ih =>
    have placed := (equalsPlacedFrom_cons.1 placed).2
    by_cases cut : cutsAt separator depth c = true
    · obtain ⟨rfl, -⟩ : c = separator ∧ _ := by simpa [cutsAt, and_assoc] using cut
      rw [cutOutside_of_cutsAt cut]
      refine List.forall_mem_cons.2 ⟨?_, ih placed⟩
      exact equalsPlaced_of_not_carriesEquals edge.noCarrier (equalsPlacedFrom_cutOutside c _ placed)
    · rw [cutOutside_of_not_cutsAt (Bool.eq_false_iff.2 cut)]
      exact ih placed

/-- Behind the first character of a balanced text the depth is not negative, and the text goes on from
there. -/
theorem exists_depthAfter (balanced : isBalancedFrom depth previous (c :: s) = true) :
    ∃ d : Nat, depthAfter depth (role previous c) = d ∧
      ∀ t, isBalancedFrom depth previous (c :: t) = isBalancedFrom d c t := by
  cases role : role previous c with
  | opens => exact ⟨depth + 1, rfl, fun t => isBalancedFrom_of_opens role t⟩
  | plain => exact ⟨depth, rfl, fun t => isBalancedFrom_of_plain role t⟩
  | closes =>
    cases depth with
    | zero =>
      rw [isBalancedFrom_of_closes_last role] at balanced
      cases balanced
    | succ depth =>
      refine ⟨depth, ?_, fun t => isBalancedFrom_of_closes role t⟩
      simp only [depthAfter]
      omega

/-- The first piece of a text between separators closes the brackets that were open in front of the
text, and the further pieces are balanced. -/
theorem isBalancedFrom_cutOutside {separator : Char} (edge : IsEdge separator)
    (balanced : isBalancedFrom depth previous s = true) :
    isBalancedFrom depth previous (cutOutside separator depth previous s).1 = true ∧
      ∀ piece ∈ (cutOutside separator depth previous s).2, isBalanced piece = true := by
  induction s generalizing depth previous with
  | nil => exact ⟨balanced, fun piece mem => absurd mem List.not_mem_nil⟩
  | cons c s ih =>
    by_cases cut : cutsAt separator depth c = true
    · -- The text is cut here, at depth zero: what follows is a text of its own.
      obtain ⟨rfl, zero, -⟩ : c = separator ∧ depth = 0 ∧ _ := by simpa [cutsAt, and_assoc] using cut
      subst zero
      have plain := role_plain edge.opening edge.closing previous
      rw [isBalancedFrom_of_plain plain] at balanced
      obtain ⟨first, further⟩ := ih balanced
      rw [cutOutside_of_cutsAt cut, plain]
      refine ⟨rfl, List.forall_mem_cons.2 ⟨?_, further⟩⟩
      rwa [isBalancedFrom_congr edge.noEquals (show '\x00' ≠ '=' by decide)] at first
    · obtain ⟨d, after, step⟩ := exists_depthAfter balanced
      rw [cutOutside_of_not_cutsAt (Bool.eq_false_iff.2 cut), after, step]
      rw [step] at balanced
      exact ih balanced

/-- The pieces of a balanced text are balanced. -/
theorem isBalanced_cutOutside {separator : Char} (edge : IsEdge separator)
    (balanced : isBalanced s = true) :
    isBalanced (cutOutside separator 0 '\x00' s).1 = true ∧
      ∀ piece ∈ (cutOutside separator 0 '\x00' s).2, isBalanced piece = true :=
  isBalancedFrom_cutOutside edge balanced

theorem Tidy.splitOutside {separator : Char} (edge : IsEdge separator) (h : Tidy s) :
    ∀ piece ∈ splitOutside separator s, Tidy piece := by
  obtain ⟨first, further⟩ := isBalanced_cutOutside edge h.balanced
  have placed := @equalsPlaced_of_mem_cutOutside _ _ _ edge 0 h.placed
  intro piece mem
  rw [splitOutside_eq_flatMap, List.mem_flatMap] at mem
  obtain ⟨whole, mem, trimmed⟩ := mem
  have tidy : Tidy whole := by
    rcases List.mem_cons.1 mem with rfl | mem
    · exact ⟨first, equalsPlacedFrom_cutOutside separator 0 h.placed⟩
    · exact ⟨further whole mem, placed whole mem⟩
  split at trimmed
  · cases trimmed
  · rw [List.mem_singleton.1 trimmed]
    exact tidy.trim

/-! ## The parts of a tidy text -/

theorem isEdge_mark (h : c ∈ ['?', '!', '.', ':', ',', '|']) : IsEdge c := by
  simp only [List.mem_cons, List.not_mem_nil, or_false] at h
  rcases h with rfl | rfl | rfl | rfl | rfl | rfl <;> exact ⟨rfl, rfl, rfl, by decide⟩

theorem nested_equals : Nested (fun _ => True) ['='] :=
  .plain rfl rfl trivial .nil

theorem nested_brackets : Nested (fun _ => True) ['[', ']'] :=
  @Nested.wrap _ '[' ']' [] [] rfl rfl (fun angle => absurd angle (by decide)) .nil .nil

theorem isBalanced_of_isNameChar (word : ∀ c ∈ s, Text.isNameChar c = true) :
    isBalanced s = true := by
  have base : ∀ c ∈ s, isBaseChar c = true := fun c mem => isBaseChar_of_isNameChar (word c mem)
  have nested : Nested (fun _ => True) s :=
    .of_forall (fun c mem => isOpening_of_isBaseChar (base c mem))
      (fun c mem => isClosing_of_isBaseChar (base c mem)) fun _ _ => trivial
  exact nested.isBalanced

namespace Tidy

theorem withoutRestMark (h : Tidy s) : Tidy (withoutRestMark s).1 := by
  rcases withoutRestMark_fst s with same | ⟨rest, dots, same⟩
  · rw [same]
    exact h.trim
  · have bare := h.trim
    rw [dots] at bare
    rw [same]
    refine (bare.behind_edges fun c mem => ?_).trim
    simp only [List.mem_cons, List.not_mem_nil, or_false, or_self] at mem
    exact isEdge_mark (by simp [mem])

theorem withoutOptionalMark (h : Tidy s) : Tidy (withoutOptionalMark s).1 := by
  have bare := h.trim
  rcases withoutOptionalMark_fst s with same | ⟨rest, mark | mark, same⟩
  · rwa [same]
  · rw [mark] at bare
    rw [same]
    exact (bare.tail (isEdge_mark (by simp))).trim
  · rw [mark] at bare
    rw [same]
    exact (bare.front nested_equals).trim

theorem withoutMark? {inner : List Char} (h : Tidy s) (found : withoutMark? s = some inner) :
    Tidy inner := by
  rcases withoutMark?_eq_some found with rfl | rfl | rfl
  · exact h.tail (isEdge_mark (by simp))
  · exact h.tail (isEdge_mark (by simp))
  · exact h.front nested_equals

theorem readArguments (h : Tidy s) : ∀ argument ∈ readArguments s, Tidy argument.type := by
  intro argument mem
  simp only [TypeExpr.readArguments, List.mem_map, List.mem_filter] at mem
  obtain ⟨entry, ⟨mem, -⟩, rfl⟩ := mem
  exact (h.splitOutside (isEdge_mark (by simp)) entry mem).withoutRestMark.withoutOptionalMark

theorem field (h : Tidy s) : ∀ part ∈ (Field.read s).parts, Tidy part := by
  intro part mem
  cases found : Field.read s with
  | verbatim text =>
    rw [found] at mem
    cases mem
  | keyed key type =>
    cases type with
    | none =>
      rw [found] at mem
      cases mem
    | some type =>
      rw [found] at mem
      obtain rfl := List.mem_singleton.1 mem
      obtain ⟨word, blanks, blanks', chars, blank, blank', rfl⟩ := Field.read_eq_keyed found
      rw [← List.append_assoc] at h
      have front := isBalanced_append (isBalanced_of_isNameChar chars) (isBalanced_of_isBlank blank)
      exact (h.behind front (isEdge_mark (by simp))).behind_edges
        fun c mem => isEdge_of_isBlank (blank' c mem)

theorem wrapped {opening closing : Char} {inner : List Char} (bracket : isOpening opening = true)
    (noCarrier : carriesEquals opening = false) (h : Tidy s)
    (found : insideBrackets? opening closing s = some inner) : Tidy inner := by
  obtain ⟨k, rfl, balanced, -⟩ := insideBrackets?_eq_some found
  have front : Tidy ([] ++ opening :: (inner ++ [k])) := h
  exact front.inside bracket noCarrier balanced

theorem generic {base args : List Char} (h : Tidy s) (found : cutGeneric? s = some (base, args)) :
    Tidy base ∧ Tidy args := by
  obtain ⟨dot, k, -, rfl, path, balanced, -⟩ := cutGeneric?_eq_some found
  refine ⟨⟨?_, equalsPlacedFrom_front h.placed⟩, ?_⟩
  · have nested : Nested (fun _ => True) base := path.nested fun _ _ => trivial
    exact nested.isBalanced
  · rw [← List.append_assoc] at h
    exact inside rfl rfl balanced h

theorem signature {signature : Signature (List Char)} (h : Tidy s)
    (found : Signature.read? s = some signature) :
    (∀ argument ∈ signature.arguments, Tidy argument.type) ∧
      ∀ type ∈ signature.returns, Tidy type := by
  obtain ⟨blanks, inner, k, after, blank, rfl, balanced, closes, arguments, returns⟩ :=
    Signature.read?_eq_some found
  have word : isBalanced ("function".toList ++ blanks) = true :=
    isBalanced_append (by decide) (isBalanced_of_isBlank blank)
  rw [← List.append_assoc] at h
  have within := inside rfl rfl balanced h
  have balanced' := within.balanced
  refine ⟨?_, fun type mem => ?_⟩
  · rw [arguments]
    exact within.readArguments
  · rw [Option.mem_def] at mem
    rw [mem] at returns
    obtain ⟨rest, colon, rfl⟩ := readReturns?_eq_some returns
    obtain ⟨before, behind, blank', blank'', whole⟩ := Text.exists_blanks_trim after
    -- Up to the colon the text is balanced.
    have front := isBalanced_append (isBalanced_append word
      (isBalanced_wrap balanced' rfl closes)) (isBalanced_of_isBlank blank')
    have cut : ("function".toList ++ blanks) ++ '(' :: (inner ++ k :: after) =
        (("function".toList ++ blanks) ++ '(' :: (inner ++ [k]) ++ before) ++
          ':' :: (rest ++ behind) := by
      rw [whole, colon]
      simp
    rw [cut] at h
    exact ((h.behind front (isEdge_mark (by simp))).front (nested_of_isBlank blank'')).trim

/-- **The parts of a tidy text are tidy.** -/
theorem parts (h : Tidy s) : ∀ part ∈ (Form.of s).parts, Tidy part := by
  have generic : ∀ {base args : List Char}, cutGeneric? s = some (base, args) →
      ∀ part ∈ base :: TypeExpr.splitOutside ',' args, Tidy part := by
    intro base args found
    obtain ⟨front, inner⟩ := h.generic found
    exact List.forall_mem_cons.2 ⟨front, inner.splitOutside (isEdge_mark (by simp))⟩
  have cut := Form.cut_of s
  generalize Form.of s = form at cut ⊢
  cases cut with
  | array found =>
    refine List.forall_mem_singleton.2 ?_
    rcases elementOf?_eq_some found with array | brackets
    · exact (h.generic array).2
    · rw [brackets] at h
      exact h.front nested_brackets
  | dictionary found pieces =>
    have each := generic found
    rw [pieces] at each
    exact (List.forall_mem_cons.1 each).2
  | generic found => exact generic found
  | function found =>
    obtain ⟨arguments, returns⟩ := h.signature found
    intro part mem
    simp only [Form.parts, List.mem_append, List.mem_map, Option.mem_toList] at mem
    rcases mem with ⟨argument, mem, rfl⟩ | mem
    · exact arguments argument mem
    · exact returns part mem
  | untypedArray => exact fun part mem => absurd mem List.not_mem_nil
  | union => exact h.splitOutside (isEdge_mark (by simp))
  | group found => exact List.forall_mem_singleton.2 (h.wrapped rfl rfl found)
  | record found =>
    intro part mem
    simp only [Form.parts, List.mem_flatMap, List.mem_map] at mem
    obtain ⟨field, ⟨entry, mem, rfl⟩, mem'⟩ := mem
    have tidy := (h.wrapped rfl rfl found).splitOutside (isEdge_mark (by simp)) entry mem
    exact tidy.field part mem'
  | marked found => exact List.forall_mem_singleton.2 (h.withoutMark? found)
  | named => exact fun part mem => absurd mem List.not_mem_nil

end Tidy

/-! ## Printed types -/

/-- A balanced text that does not end in an equals sign. -/
structure Whole (s : List Char) : Prop where
  balanced : isBalanced s = true
  last : s.getLast? ≠ some '='

instance (s : List Char) : Decidable (Whole s) :=
  decidable_of_iff (isBalanced s = true ∧ s.getLast? ≠ some '=')
    ⟨fun h => ⟨h.1, h.2⟩, fun h => ⟨h.balanced, h.last⟩⟩

namespace Whole

/-- Behind a balanced text only the end of a text that is there counts. -/
theorem behind (balanced : isBalanced s = true) (h : Whole t) (filled : t ≠ []) : Whole (s ++ t) where
  balanced := isBalanced_append balanced h.balanced
  last := by
    rw [List.getLast?_append_of_ne_nil s filled]
    exact h.last

theorem append (h : Whole s) (h' : Whole t) : Whole (s ++ t) := by
  by_cases empty : t = []
  · rwa [empty, List.append_nil]
  · exact h'.behind h.balanced empty

theorem wrap (h : Whole s) {o k : Char} (opening : isOpening o = true) (closing : isClosing k = true) :
    Whole (o :: (s ++ [k])) where
  balanced := isBalanced_wrap h.balanced opening
    (role_closes closing fun _ => getLastD_ne_equals opening h.last)
  last := by
    rw [List.getLast?_cons, List.getLast?_concat]
    rintro ⟨⟩
    cases closing

/-- `append` on strings. -/
theorem concat {a b : String} (h : Whole a.toList) (h' : Whole b.toList) :
    Whole (a ++ b).toList := by
  rw [String.toList_append]
  exact h.append h'

theorem of_isNameChar (word : ∀ c ∈ s, Text.isNameChar c = true) : Whole s where
  balanced := isBalanced_of_isNameChar word
  last := fun last => absurd (word _ (List.mem_of_getLast? last)) (by decide)

theorem joinWith (separator : String) (h : Whole separator.toList) {texts : List String}
    (each : ∀ text ∈ texts, Whole text.toList) : Whole (Text.joinWith separator texts).toList := by
  induction texts with
  | nil => exact ⟨rfl, fun last => nomatch last⟩
  | cons text rest ih =>
    rw [List.forall_mem_cons] at each
    by_cases empty : rest = []
    · rw [empty]
      exact each.1
    · rw [Text.joinWith_cons separator text empty]
      exact (each.1.concat h).concat (ih each.2)

end Whole

theorem whole_printArguments (index : Nat) (afterOptional : Bool)
    {arguments : List (Argument String)} (each : ∀ argument ∈ arguments, Whole argument.type.toList) :
    ∀ entry ∈ printArguments index afterOptional arguments, Whole entry.toList := by
  induction arguments generalizing index afterOptional with
  | nil => exact fun entry mem => absurd mem List.not_mem_nil
  | cons argument rest ih =>
    rw [List.forall_mem_cons] at each
    have position : Whole ("arg" ++ toString index).toList :=
      .of_isNameChar fun c mem => isNameChar_of_isWordChar (isWordChar_of_mem_position index c mem)
    have colon : Whole ": ".toList := by decide
    rw [printArguments]
    split
    · refine List.forall_mem_cons.2 ⟨?_, ih _ _ each.2⟩
      have dots : Whole "...".toList := by decide
      have brackets : Whole "[]".toList := by decide
      exact (((dots.concat position).concat colon).concat each.1).concat brackets
    · refine List.forall_mem_cons.2 ⟨?_, ih _ _ each.2⟩
      have mark : ∀ optional : Bool, Whole (if optional then "?" else "").toList := by
        intro optional
        cases optional <;> decide
      exact ((position.concat (mark _)).concat colon).concat each.1

theorem whole_signature {signature : Signature String} {d : String} (returns : Whole d.toList)
    (arguments : ∀ argument ∈ signature.arguments, Whole argument.type.toList)
    (type : ∀ type ∈ signature.returns, Whole type.toList) : Whole (signature.print d).toList := by
  have joined := Whole.joinWith ", " (by decide)
    (whole_printArguments 0 false arguments)
  have front := joined.wrap (o := '(') (k := ')') rfl rfl
  have behind : Whole (signature.returns.getD d).toList := by
    cases found : signature.returns with
    | none => exact returns
    | some type' => exact type type' found
  have whole := (front.append (t := " => ".toList) (by decide)).append behind
  unfold Signature.print
  simpa using whole

/-- The text of an entry of a record whose type is printed whole. -/
theorem whole_field {entry : List Char} {shown : List Char → String} (tidy : Tidy entry)
    (parts : ∀ part ∈ (Field.read entry).parts, Whole (shown part).toList) :
    Whole ((Field.read entry).map shown).text.toList := by
  have semicolon : Whole ";".toList := by decide
  rcases Field.read_eq entry with read | ⟨type, read⟩
  · rw [read]
    show Whole (String.ofList entry ++ ";").toList
    rw [String.toList_append, String.toList_ofList]
    exact semicolon.behind tidy.balanced (by decide)
  · have key : Whole (String.ofList (entry.takeWhile Text.isNameChar)).toList := by
      rw [String.toList_ofList]
      exact .of_isNameChar (List.all_eq_true.1 List.all_takeWhile)
    rw [read] at parts ⊢
    cases type with
    | none => exact key.concat (b := ": any;") (by decide)
    | some type =>
      have colon : Whole ": ".toList := by decide
      have inside := parts type List.mem_cons_self
      exact ((key.concat colon).concat inside).concat semicolon

/-- A text without a mark does not end in an equals sign. -/
theorem Tidy.whole_of_unmarked (tidy : Tidy s) (unmarked : TypeExpr.withoutMark? s = none) :
    Whole s where
  balanced := tidy.balanced
  last := by
    intro last
    obtain ⟨inner, rfl⟩ := List.getLast?_eq_some_iff.1 last
    cases inner with
    | nil => cases tidy.placed
    | cons c inner =>
      -- A longer text that ends in an equals sign is marked.
      have long : hasTwoBytes ((c :: inner) ++ ['=']) = true := hasTwoBytes_of_length (by simp)
      unfold TypeExpr.withoutMark? at unmarked
      rw [long, Text.dropFinish?_append] at unmarked
      simp only [Bool.not_true, Bool.false_eq_true, if_false] at unmarked
      split at unmarked
      · cases unmarked
      · split at unmarked <;> cases unmarked

theorem whole_record {d : String} {fields : List (Field TypeExpr)}
    (texts : ∀ text ∈ printFields d fields, Whole text.toList) :
    Whole (print d (.record fields)).toList := by
  cases fields with
  | nil =>
    show Whole "\x7b\x7d".toList
    decide
  | cons field fields =>
    have space : Whole [' '] := by decide
    have joined := Whole.joinWith " " (by decide) texts
    have whole := ((space.append joined).append space).wrap (o := '\x7b') (k := '\x7d') rfl rfl
    simpa [print] using whole

/-- **A tree whose parts are printed whole is printed whole.** -/
theorem whole_tree {readPart : List Char → TypeExpr} {d : String} {name : List Char}
    (returns : Whole d.toList) (tidy : Tidy name)
    (parts : ∀ part ∈ (Form.of name).parts, Whole (print d (readPart part)).toList) :
    Whole (print d ((Form.of name).tree readPart name)).toList := by
  have joined : ∀ (separator : String) {pieces : List (List Char)}, Whole separator.toList →
      (∀ part ∈ pieces, Whole (print d (readPart part)).toList) →
        Whole (Text.joinWith separator (printAll d (pieces.map readPart))).toList := by
    intro separator pieces h each
    refine Whole.joinWith separator h fun text mem => ?_
    rw [printAll_eq_map, List.map_map] at mem
    obtain ⟨part, inside, rfl⟩ := List.mem_map.1 mem
    exact each part inside
  have cut := Form.cut_of name
  generalize Form.of name = form at cut parts ⊢
  cases cut with
  | array => exact (parts _ List.mem_cons_self).concat (b := "[]") (by decide)
  | @dictionary base args key value found pieces =>
    have inKey := parts key List.mem_cons_self
    have inValue := parts value (List.mem_cons_of_mem key List.mem_cons_self)
    have front : Whole "key: ".toList := by decide
    have colon : Whole ": ".toList := by decide
    have semicolon : Whole "; ".toList := by decide
    have index := (front.append inKey).wrap (o := '[') (k := ']') rfl rfl
    have inside := ((index.append colon).append inValue).append semicolon
    have space : Whole [' '] := by decide
    have whole := (space.append inside).wrap (o := '\x7b') (k := '\x7d') rfl rfl
    simpa [Form.tree, print] using whole
  | generic =>
    obtain ⟨inBase, inArgs⟩ := List.forall_mem_cons.1 parts
    have inside := joined ", " (by decide) inArgs
    have whole := inBase.append (inside.wrap (o := '<') (k := '>') rfl rfl)
    simpa [Form.tree, print] using whole
  | function =>
    simp only [Form.parts, List.mem_append, List.mem_map, Option.mem_toList] at parts
    refine whole_signature returns (fun argument mem => ?_) fun type mem => ?_
    · rw [printTypes_eq_map] at mem
      simp only [List.mem_map] at mem
      obtain ⟨-, ⟨argument', mem, rfl⟩, rfl⟩ := mem
      exact parts _ (Or.inl ⟨argument', mem, rfl⟩)
    · rw [printReturns_eq_map] at mem
      simp only [Option.mem_def, Option.map_eq_some_iff] at mem
      obtain ⟨-, ⟨type', mem, rfl⟩, rfl⟩ := mem
      exact parts _ (Or.inr mem)
  | untypedArray =>
    show Whole "any[]".toList
    decide
  | union => exact joined "|" (by decide) parts
  | group =>
    have whole := (parts _ List.mem_cons_self).wrap (o := '(') (k := ')') rfl rfl
    simpa [Form.tree, print] using whole
  | @record inside found =>
    have entries := (tidy.wrapped rfl rfl found).splitOutside (isEdge_mark (c := ',') (by simp))
    refine whole_record fun text mem => ?_
    rw [printFields_eq_map, List.map_map, List.map_map, List.mem_map] at mem
    obtain ⟨entry, mem, rfl⟩ := mem
    simp only [Function.comp, Field.map_map]
    refine whole_field (entries entry mem) fun part inEntry => parts part ?_
    simp only [Form.parts, List.mem_flatMap, List.mem_map]
    exact ⟨_, ⟨entry, mem, rfl⟩, inEntry⟩
  | marked => exact parts _ List.mem_cons_self
  | named unmarked =>
    show Whole (String.ofList name).toList
    rw [String.toList_ofList]
    exact tidy.whole_of_unmarked unmarked

variable {c : Config}

/-- What a replacement puts into a type is whole if the configured texts are. -/
theorem whole_of_replacement? (values : ∀ text ∈ c.typeReplacements.values, Whole text.toList)
    {name text : String} (found : c.replacement? name = some text) : Whole text.toList := by
  unfold Config.replacement? at found
  split at found
  · rename_i configured
    cases found
    exact values _ (OrderedMap.mem_values_iff.2 ⟨name, configured⟩)
  · have builtin : ∀ entry ∈ Config.builtinReplacements,
        isBalanced entry.2.toList = true ∧ entry.2.toList.getLast? ≠ some '=' := by decide
    obtain ⟨before, after, entries, -⟩ := List.lookup_eq_some_iff.1 found
    have mem : (name, text) ∈ Config.builtinReplacements := by simp [entries]
    exact ⟨(builtin _ mem).1, (builtin _ mem).2⟩

theorem whole_print (values : ∀ text ∈ c.typeReplacements.values, Whole text.toList)
    (returns : Whole c.defaultReturnType.toList) (raw : List Char) (tidy : Tidy raw) :
    Whole (print c.defaultReturnType (read c.replacement? raw)).toList := by
  induction raw using read_induction c.replacement? with
  | replaced raw text found => exact whole_of_replacement? values found
  | formed raw found parts =>
    exact whole_tree returns tidy.trim fun part mem => parts part mem (tidy.trim.parts part mem)

end TypeExpr

open TypeExpr in
/-- **Balanced texts are translated to balanced types.** The equals signs of the raw text stand where
marks of optionality stand, and neither a configured replacement nor the default return type ends in
one. -/
theorem Config.isBalanced_typeText (c : Config) (raw : String)
    (balanced : isBalanced raw.toList = true) (placed : equalsPlaced raw.toList = true)
    (values : ∀ text ∈ c.typeReplacements.values, isBalanced text.toList = true ∧
      text.toList.getLast? ≠ some '=')
    (returns : isBalanced c.defaultReturnType.toList = true ∧
      c.defaultReturnType.toList.getLast? ≠ some '=') :
    isBalanced (c.typeText raw).text.toList = true :=
  (whole_print (fun text mem => ⟨(values text mem).1, (values text mem).2⟩)
    ⟨returns.1, returns.2⟩ raw.toList ⟨balanced, placed⟩).balanced

open TypeExpr in
/-- The type of a record with a function in it that takes an optional argument. -/
theorem Config.isBalanced_typeText_record :
    isBalanced (({ typeReplacements := .ofList [("B", "Set<any>")] } : Config).typeText
      "\x7bcall: function(Array.<A>=, B): Map.<A, B>\x7d").text.toList = true :=
  Config.isBalanced_typeText { typeReplacements := .ofList [("B", "Set<any>")] }
    "\x7bcall: function(Array.<A>=, B): Map.<A, B>\x7d" (by decide) (by decide) (by decide)
    (by decide)

end Ambient
