import Ambient.Proofs.FunctionTypedef.Expansion
import Ambient.Proofs.Occurrences
/-!
# Line breaks in annotations

A long annotation is spread over several lines of a comment, each with a margin of blanks, a star
and blanks. Before an annotation is read each line end and the margin behind it become one blank. So
where its lines are broken makes no difference to what is read, as long as a line is broken at a
blank; a star of the type itself stays even if it comes first on its line.

## Main definitions

* `FunctionTypedef.IsLineBreak`: a line end and the margin of the next line.
* `FunctionTypedef.Rebroken`: a text with line breaks in place of some of its blanks.
* `FunctionTypedef.OneLine`: a text on one line without blanks in a row.
* `FunctionTypedef.Braced`: a text in which every brace is closed.

## Main statements

* `FunctionTypedef.flatten_append`: a line end has no effect beyond its margin.
* `FunctionTypedef.Rebroken.flatten_eq`: line breaks in place of blanks make no difference.
* `FunctionTypedef.Rebroken.infix_iff`: a word without blanks stands in both layouts or in none.
* `FunctionTypedef.infix_of_infix_flatten`: flattening a text makes no new words.
* `FunctionTypedef.annotation?_tagged`: the annotation is the text in the braces of the tag.
* `FunctionTypedef.expand_rebroken`: the same signature is read in every layout.
-/

namespace Ambient.FunctionTypedef

/-! ## Layouts -/

/-- The margin of a line with text on it: blanks, a star and at least one more blank. -/
inductive IsMargin : List Char → Prop
  | star {before after : List Char} (blank : ∀ c ∈ before, isMarginBlank c = true)
      (blank' : ∀ c ∈ after, isMarginBlank c = true) (filled : after ≠ []) :
      IsMargin (before ++ '*' :: after)

/-- A line end and the margin of the next line. -/
inductive IsLineBreak : List Char → Prop
  | lineFeed {margin : List Char} (h : IsMargin margin) : IsLineBreak ('\n' :: margin)
  | carriageReturn {margin : List Char} (h : IsMargin margin) :
      IsLineBreak ('\r' :: '\n' :: margin)

/-- A text with line breaks in place of some of its blanks. -/
inductive Rebroken : List Char → List Char → Prop
  | nil : Rebroken [] []
  | keep (c : Char) {s t : List Char} (rest : Rebroken s t) : Rebroken (c :: s) (c :: t)
  | wrap {s t lineBreak : List Char} (h : IsLineBreak lineBreak) (rest : Rebroken s t) :
      Rebroken (' ' :: s) (lineBreak ++ t)

/-- Two blanks in a row. A carriage return counts as one if another one follows it. -/
def AreBlanks (c d : Char) : Prop :=
  (isMarginBlank c = true ∨ c = '\r') ∧ isMarginBlank d = true

instance (c d : Char) : Decidable (AreBlanks c d) :=
  inferInstanceAs (Decidable ((isMarginBlank c = true ∨ c = '\r') ∧ isMarginBlank d = true))

/-- A text on one line without two blanks in a row. -/
structure OneLine (s : List Char) : Prop where
  unbroken : '\n' ∉ s
  spaced : s.IsChain fun c d => ¬ AreBlanks c d

variable {c d : Char} {s t u v rest lineBreak pattern : List Char}

namespace OneLine

theorem tail (h : OneLine (c :: s)) : OneLine s where
  unbroken := fun mem => h.unbroken (List.mem_cons_of_mem c mem)
  spaced := h.spaced.of_cons

/-- Behind a blank there is no other one. -/
theorem not_areBlanks (h : OneLine (c :: s)) (next : s.head? = some d) : ¬ AreBlanks c d := by
  obtain ⟨rest, rfl⟩ : ∃ rest, s = d :: rest := List.head?_eq_some_iff.1 next
  exact (List.isChain_cons_cons.1 h.spaced).1

/-- Behind a blank no line is broken, so the text goes on as before. -/
theorem head?_ne_space (h : OneLine (c :: s)) (blank : isMarginBlank c = true ∨ c = '\r') :
    s.head? ≠ some ' ' :=
  fun next => h.not_areBlanks next ⟨blank, rfl⟩

theorem head?_ne_lineFeed (h : OneLine (c :: s)) : s.head? ≠ some '\n' :=
  fun next => h.unbroken (List.mem_cons_of_mem c (List.mem_of_head? next))

end OneLine

namespace Rebroken

theorem refl (s : List Char) : Rebroken s s := by
  induction s with
  | nil => exact nil
  | cons c s ih => exact keep c ih

theorem append {s' t' : List Char} (h : Rebroken s t) (h' : Rebroken s' t') :
    Rebroken (s ++ s') (t ++ t') := by
  induction h with
  | nil => exact h'
  | keep c _ ih => exact keep c ih
  | wrap isBreak _ ih =>
    rw [List.append_assoc]
    exact wrap isBreak ih

/-- Where no blank comes first both layouts start alike. -/
theorem head?_eq (h : Rebroken s t) (first : s.head? ≠ some ' ') : t.head? = s.head? := by
  cases h with
  | nil => rfl
  | keep => rfl
  | wrap => exact absurd rfl first

end Rebroken

/-! ## Margins -/

theorem dropWhile_append_cons {p : Char → Bool} (stop : p c = false) (u v : List Char) :
    (u ++ c :: v).dropWhile p = u.dropWhile p ++ c :: v := by
  rw [List.dropWhile_append]
  split
  · rename_i all
    rw [List.isEmpty_iff.1 all, List.dropWhile_cons_of_neg (by simp [stop]), List.nil_append]
  · rfl

/-- A character that does not belong to a margin ends it. -/
theorem dropMargin_append (solid : isMarginBlank c = false) (noStar : c ≠ '*') (u v : List Char) :
    dropMargin (u ++ c :: v) = dropMargin u ++ c :: v := by
  unfold dropMargin
  rw [dropWhile_append_cons solid]
  split
  · rename_i after star
    split
    · rename_i after' star'
      rw [star', List.cons_append, List.cons.injEq] at star
      rw [← star.2, dropWhile_append_cons solid]
    · rename_i other
      cases bare : u.dropWhile isMarginBlank with
      | nil =>
        rw [bare, List.nil_append, List.cons.injEq] at star
        exact absurd star.1 noStar
      | cons d rest =>
        rw [bare, List.cons_append, List.cons.injEq] at star
        exact absurd (star.1 ▸ bare) (other rest)
  · rename_i other
    split
    · rename_i after star
      exact absurd (by rw [star, List.cons_append]) (other (after ++ c :: v))
    · rfl

/-- A whole margin is dropped, and nothing behind it. -/
theorem IsMargin.dropMargin_append {margin : List Char} (h : IsMargin margin)
    (next : ∀ c, rest.head? = some c → isMarginBlank c = false) :
    dropMargin (margin ++ rest) = rest := by
  have stays : rest.dropWhile isMarginBlank = rest := by
    cases rest with
    | nil => rfl
    | cons c rest => exact List.dropWhile_cons_of_neg (by simp [next c rfl])
  cases h with
  | @star before after blank blank' =>
    unfold dropMargin
    rw [List.append_assoc, List.dropWhile_append_of_pos blank, List.cons_append,
      List.dropWhile_cons_of_neg (by decide)]
    simp only
    rw [List.dropWhile_append_of_pos blank', stays]

/-! ## Flattening -/

/-- A character that is no line end and does not start one stays. -/
theorem flatten_cons_of_not (noFeed : c ≠ '\n')
    (noReturn : ∀ rest, c = '\r' → s = '\n' :: rest → False) :
    flatten (c :: s) = c :: flatten s := by
  rw [flatten]
  · exact noFeed
  · exact noReturn

/-- A line end has no effect beyond its margin. -/
theorem flatten_append (solid : isMarginBlank c = false) (noStar : c ≠ '*') (noFeed : c ≠ '\n')
    (u v : List Char) : flatten (u ++ c :: v) = flatten u ++ flatten (c :: v) := by
  induction u using flatten.induct with
  | case1 => rw [flatten]; rfl
  | case2 rest ih =>
    rw [List.cons_append, flatten, flatten, dropMargin_append solid noStar, ih]
    rfl
  | case3 rest ih =>
    rw [List.cons_append, List.cons_append, flatten, flatten, dropMargin_append solid noStar, ih]
    rfl
  | case4 d rest noFeed' noReturn ih =>
    rw [List.cons_append, flatten_cons_of_not noFeed' noReturn, flatten_cons_of_not noFeed', ih]
    · rfl
    · intro later isReturn start
      cases rest with
      | nil => exact noFeed (List.cons.inj start).1
      | cons e rest => exact noReturn rest isReturn (by rw [(List.cons.inj start).1])

theorem flatten_cons (noFeed : c ≠ '\n') (noReturn : c = '\r' → s.head? ≠ some '\n') :
    flatten (c :: s) = c :: flatten s := by
  refine flatten_cons_of_not noFeed ?_
  rintro rest isReturn rfl
  exact noReturn isReturn rfl

theorem IsLineBreak.flatten_append (h : IsLineBreak lineBreak)
    (next : ∀ c, rest.head? = some c → isMarginBlank c = false) :
    flatten (lineBreak ++ rest) = ' ' :: flatten rest := by
  cases h with
  | lineFeed margin => rw [List.cons_append, flatten, margin.dropMargin_append next]
  | carriageReturn margin =>
    rw [List.cons_append, List.cons_append, flatten, margin.dropMargin_append next]

/-- **Line breaks in place of blanks make no difference**, up to a character that ends a margin. -/
theorem Rebroken.flatten_eq (h : Rebroken s t) (line : OneLine s) (solid : isMarginBlank c = false)
    (noFeed : c ≠ '\n') (v : List Char) : flatten (t ++ c :: v) = flatten (s ++ c :: v) := by
  induction h with
  | nil => rfl
  | @keep d s t rest ih =>
    have here : d ≠ '\n' := by
      rintro rfl
      exact line.unbroken List.mem_cons_self
    have first : ∀ w : List Char, w.head? ≠ some '\n' → (w ++ c :: v).head? ≠ some '\n' := by
      intro w other
      cases w with
      | nil => simpa using noFeed
      | cons e w => exact other
    rw [List.cons_append, List.cons_append, flatten_cons here, flatten_cons here, ih line.tail]
    · exact fun _ => first s line.head?_ne_lineFeed
    · intro isReturn
      refine first t ?_
      rw [rest.head?_eq (line.head?_ne_space (.inr isReturn))]
      exact line.head?_ne_lineFeed
  | @wrap s t lineBreak isBreak rest ih =>
    have next : ∀ e, (t ++ c :: v).head? = some e → isMarginBlank e = false := by
      intro e first
      have same := rest.head?_eq (line.head?_ne_space (.inl rfl))
      cases t with
      | nil =>
        cases first
        exact solid
      | cons e' t =>
        cases first
        exact Bool.eq_false_iff.2 fun blank => line.not_areBlanks same.symm ⟨.inl rfl, blank⟩
    rw [List.append_assoc, isBreak.flatten_append next, ih line.tail, List.cons_append,
      flatten_cons (by decide) fun isReturn => absurd isReturn (by decide)]

/-! ## Words -/

/-- The characters of line breaks and of the blanks in their place. -/
def layoutChars : List Char := [' ', '\t', '\n', '\r', '*']

theorem mem_layoutChars_of_isMarginBlank (blank : isMarginBlank c = true) : c ∈ layoutChars := by
  unfold isMarginBlank at blank
  rw [Bool.or_eq_true, beq_iff_eq, beq_iff_eq] at blank
  rcases blank with rfl | rfl <;> decide

theorem IsLineBreak.mem_layoutChars (h : IsLineBreak lineBreak) :
    ∀ c ∈ lineBreak, c ∈ layoutChars := by
  have margins : ∀ {margin}, IsMargin margin → ∀ c ∈ margin, c ∈ layoutChars := by
    rintro margin ⟨blank, blank', -⟩ c mem
    rcases List.mem_append.1 mem with before | behind
    · exact mem_layoutChars_of_isMarginBlank (blank c before)
    · rcases List.mem_cons.1 behind with rfl | after
      · decide
      · exact mem_layoutChars_of_isMarginBlank (blank' c after)
  cases h with
  | lineFeed margin =>
    rw [List.forall_mem_cons]
    exact ⟨by decide, margins margin⟩
  | carriageReturn margin =>
    rw [List.forall_mem_cons, List.forall_mem_cons]
    exact ⟨by decide, by decide, margins margin⟩

theorem IsLineBreak.ne_nil (h : IsLineBreak lineBreak) : lineBreak ≠ [] := by
  cases h <;> exact List.cons_ne_nil _ _

/-- **A word without blanks stands in both layouts or in none.** -/
theorem Rebroken.infix_iff (h : Rebroken s t) (filled : pattern ≠ [])
    (foreign : ∀ c ∈ layoutChars, c ∉ pattern) (u v : List Char) :
    pattern <:+: u ++ (t ++ v) ↔ pattern <:+: u ++ (s ++ v) := by
  induction h generalizing u with
  | nil => rfl
  | @keep d s t _ ih =>
    have before := ih (u ++ [d])
    rw [List.append_assoc, List.append_assoc] at before
    exact before
  | @wrap s t lineBreak isBreak _ ih =>
    have apart : ∀ c ∈ lineBreak, c ∉ pattern :=
      fun c mem => foreign c (isBreak.mem_layoutChars c mem)
    have behind := ih []
    rw [List.nil_append, List.nil_append] at behind
    rw [List.append_assoc, Text.infix_append_foreign_iff filled isBreak.ne_nil apart,
      List.cons_append, Text.infix_append_cons_iff filled (foreign ' ' (by decide)), behind]

/-! ## The annotation -/

/-- A text in which every brace is closed. -/
inductive Braced : List Char → Prop
  | nil : Braced []
  | plain {c : Char} {s : List Char} (noOpening : c ≠ '\x7b') (noClosing : c ≠ '\x7d')
      (rest : Braced s) : Braced (c :: s)
  | braces {s t : List Char} (inside : Braced s) (rest : Braced t) :
      Braced ('\x7b' :: (s ++ '\x7d' :: t))

theorem Braced.of_plain (noOpening : '\x7b' ∉ s) (noClosing : '\x7d' ∉ s) : Braced s := by
  induction s with
  | nil => exact nil
  | cons c s ih =>
    rw [List.mem_cons, not_or] at noOpening noClosing
    exact .plain (Ne.symm noOpening.1) (Ne.symm noClosing.1) (ih noOpening.2 noClosing.2)

theorem untilBrace?_plain (noOpening : c ≠ '\x7b') (noClosing : c ≠ '\x7d') (depth : Nat)
    (rest : List Char) :
    untilBrace? depth (c :: rest) = (untilBrace? depth rest).map (c :: ·) := by
  rw [untilBrace?.eq_def]
  simp only [if_neg noOpening, if_neg noClosing]

theorem untilBrace?_opening (depth : Nat) (rest : List Char) :
    untilBrace? depth ('\x7b' :: rest) = (untilBrace? (depth + 1) rest).map ('\x7b' :: ·) := rfl

theorem untilBrace?_closing (depth : Nat) (rest : List Char) :
    untilBrace? (depth + 1) ('\x7d' :: rest) = (untilBrace? depth rest).map ('\x7d' :: ·) := rfl

theorem untilBrace?_closing_last (rest : List Char) :
    untilBrace? 0 ('\x7d' :: rest) = some [] := rfl

/-- A text in which every brace is closed is passed over. -/
theorem Braced.untilBrace?_append (h : Braced s) (depth : Nat) (rest : List Char) :
    untilBrace? depth (s ++ rest) = (untilBrace? depth rest).map (s ++ ·) := by
  induction h generalizing depth rest with
  | nil => exact (Option.map_id' (x := untilBrace? depth rest)).symm
  | plain noOpening noClosing _ ih =>
    rw [List.cons_append, untilBrace?_plain noOpening noClosing, ih, Option.map_map]
    rfl
  | braces _ _ inside later =>
    rw [List.cons_append, untilBrace?_opening, List.append_assoc, inside, List.cons_append,
      untilBrace?_closing, later, Option.map_map, Option.map_map, Option.map_map]
    simp only [Function.comp_def, List.cons_append, List.append_assoc]

/-- A text on one line is not changed. -/
theorem flatten_append_of_unbroken (unbroken : '\n' ∉ s) (next : rest.head? ≠ some '\n') :
    flatten (s ++ rest) = s ++ flatten rest := by
  induction s with
  | nil => rfl
  | cons c s ih =>
    rw [List.mem_cons, not_or] at unbroken
    rw [List.cons_append, flatten_cons (Ne.symm unbroken.1), ih unbroken.2, List.cons_append]
    intro _
    cases s with
    | nil => exact next
    | cons d s =>
      intro feed
      rw [List.cons_append, List.head?_cons, Option.some.injEq] at feed
      exact unbroken.2 (feed ▸ List.mem_cons_self)

theorem dropMargin_suffix (s : List Char) : dropMargin s <:+ s := by
  have blanks := List.dropWhile_suffix isMarginBlank (l := s)
  unfold dropMargin
  split
  · rename_i rest star
    rw [star] at blanks
    exact ((List.dropWhile_suffix _).trans (List.suffix_cons '*' rest)).trans blanks
  · exact blanks

/-- A word without spaces that a flattened text starts with was there before. -/
theorem prefix_of_prefix_flatten (noSpace : ' ' ∉ pattern) (start : pattern <+: flatten s) :
    pattern <+: s := by
  induction s using flatten.induct generalizing pattern with
  | case1 => rwa [flatten] at start
  | case2 rest | case3 rest =>
    rw [flatten] at start
    rcases List.prefix_cons_iff.1 start with rfl | ⟨word, rfl, -⟩
    · exact List.nil_prefix
    · exact absurd List.mem_cons_self noSpace
  | case4 c rest noFeed noReturn ih =>
    rw [flatten_cons_of_not noFeed noReturn] at start
    rcases List.prefix_cons_iff.1 start with rfl | ⟨word, rfl, later⟩
    · exact List.nil_prefix
    · exact List.cons_prefix_cons.2 ⟨rfl, ih (List.not_mem_of_not_mem_cons noSpace) later⟩

/-- **Flattening a text makes no new words.** -/
theorem infix_of_infix_flatten (filled : pattern ≠ []) (noSpace : ' ' ∉ pattern)
    (inside : pattern <:+: flatten s) : pattern <:+: s := by
  have behind : ∀ {text}, pattern <:+: ' ' :: text → pattern <:+: text := by
    intro text found
    rcases (Text.infix_append_cons_iff (u := []) filled noSpace).1 found with none | later
    · exact absurd (List.infix_nil.1 none) filled
    · exact later
  induction s using flatten.induct with
  | case1 => rwa [flatten] at inside
  | case2 rest ih =>
    rw [flatten] at inside
    have later := (ih (behind inside)).trans (dropMargin_suffix rest).isInfix
    exact later.trans (List.suffix_cons '\n' rest).isInfix
  | case3 rest ih =>
    rw [flatten] at inside
    have later := (ih (behind inside)).trans (dropMargin_suffix rest).isInfix
    exact later.trans (List.suffix_append ['\r', '\n'] rest).isInfix
  | case4 c rest noFeed noReturn ih =>
    by_cases start : pattern <+: flatten (c :: rest)
    · exact (prefix_of_prefix_flatten noSpace start).isInfix
    · rw [flatten_cons_of_not noFeed noReturn] at inside start
      have later := ih ((List.infix_cons_iff.1 inside).resolve_left start)
      exact later.trans (List.suffix_cons c rest).isInfix

/-- The characters of a comment with a type in its `typedef` tag. -/
theorem toList_tagged (before text after : String) :
    (before ++ "@typedef \x7b" ++ text ++ "\x7d" ++ after).toList =
      before.toList ++ "@typedef ".toList ++ '\x7b' :: (text.toList ++ '\x7d' :: after.toList) := by
  simp only [String.toList_append, List.append_assoc]
  rfl

/-- **The annotation is the text in the braces**, if the tag is the first of its kind and all braces
in the text are closed. -/
theorem annotation?_tagged {before text : String} (after : String)
    (first : Text.contains "@typedef" before = false) (line : OneLine text.toList)
    (braced : Braced text.toList) :
    annotation? (before ++ "@typedef \x7b" ++ text ++ "\x7d" ++ after) =
      some (Text.trim text.toList) := by
  have absent : ¬ "@typedef".toList <:+: flatten before.toList := by
    intro inside
    have found := Text.occursIn_eq_true_iff.2
      (infix_of_infix_flatten (by decide) (by decide) inside)
    exact absurd (found.symm.trans first) (by decide)
  -- From the tag to the closing brace there is no line end.
  have unbroken : '\n' ∉ '@' :: ("typedef \x7b".toList ++ text.toList) := by
    intro mem
    rcases List.mem_append.1 ((List.mem_cons.1 mem).resolve_left (by decide)) with tag | inside
    · exact absurd tag (by decide)
    · exact line.unbroken inside
  have flat : flatten (before ++ "@typedef \x7b" ++ text ++ "\x7d" ++ after).toList =
      flatten before.toList ++ ("@typedef".toList ++
        (' ' :: '\x7b' :: (text.toList ++ '\x7d' :: flatten after.toList))) := by
    have tagged : (before ++ "@typedef \x7b" ++ text ++ "\x7d" ++ after).toList = before.toList ++
        '@' :: ("typedef \x7b".toList ++ text.toList ++ '\x7d' :: after.toList) := by
      simp only [String.toList_append, List.append_assoc]
      rfl
    rw [tagged, flatten_append (by decide) (by decide) (by decide), ← List.cons_append,
      flatten_append_of_unbroken unbroken (by simp),
      flatten_cons (by decide) fun isReturn => absurd isReturn (by decide), List.cons_append,
      List.append_assoc]
    rfl
  have found : Text.afterFirst? "@typedef".toList
      (flatten (before ++ "@typedef \x7b" ++ text ++ "\x7d" ++ after).toList) =
        some (' ' :: '\x7b' :: (text.toList ++ '\x7d' :: flatten after.toList)) := by
    rw [flat]
    exact Text.afterFirst?_append (a := '@') (by decide) absent _
  have opened : Text.trimStart (' ' :: '\x7b' :: (text.toList ++ '\x7d' :: flatten after.toList)) =
      '\x7b' :: (text.toList ++ '\x7d' :: flatten after.toList) := rfl
  unfold annotation?
  rw [found, Option.bind_eq_bind, Option.bind_some, opened]
  simp only [braced.untilBrace?_append, untilBrace?_closing_last, Option.map_some, List.append_nil]

/-! ## Expansion -/

/-- What is read and reported depends on the flattened comment and on the mark only. -/
theorem expand_of_flatten {d : Doclet} {comment : String}
    (flat : flatten comment.toList = flatten d.comment.toList)
    (marked : Text.contains mark comment = Text.contains mark d.comment) :
    let other := { d with comment }
    source other = source d ∧ (expand other).1.params = (expand d).1.params ∧
      (expand other).1.returns = (expand d).1.returns ∧ (expand other).2 = (expand d).2 := by
  intro other
  have sources : source other = source d := by
    unfold source annotation?
    rw [flat]
    rfl
  have shapes : isFunctionShaped other = isFunctionShaped d := rfl
  have marks : isMarked other = isMarked d := marked
  have reports : unmatched other = unmatched d := by
    unfold unmatched
    rw [sources]
  refine ⟨sources, ?_⟩
  unfold expand
  rw [sources, shapes, marks, reports]
  split
  · exact ⟨rfl, rfl, rfl⟩
  · split
    · exact ⟨rfl, rfl, rfl⟩
    · cases readSignature? (source d) <;> exact ⟨rfl, rfl, rfl⟩

/-- **The layout of a comment makes no difference.** Take a comment with a type in a `typedef` tag,
on one line and without blanks in a row, and break lines of the type at any of its spaces. The same
parameters and the same return value are read, and the same is reported. If the tag is the first
of its kind and the braces in the type are closed, then it is that type which is read. -/
theorem expand_rebroken {d : Doclet} {before text text' after : String}
    (comment : d.comment = before ++ "@typedef \x7b" ++ text ++ "\x7d" ++ after)
    (line : OneLine text.toList) (rebroken : Rebroken text.toList text'.toList) :
    let d' := { d with comment := before ++ "@typedef \x7b" ++ text' ++ "\x7d" ++ after }
    (expand d').1.params = (expand d).1.params ∧ (expand d').1.returns = (expand d).1.returns ∧
      (expand d').2 = (expand d).2 ∧
      (Text.contains "@typedef" before = false → Braced text.toList →
        source d' = Text.trimmed text) := by
  intro d'
  have flat : flatten (before ++ "@typedef \x7b" ++ text' ++ "\x7d" ++ after).toList =
      flatten d.comment.toList := by
    have opening : ∀ rest, flatten ('\x7b' :: rest) = '\x7b' :: flatten rest :=
      fun rest => flatten_cons (by decide) fun isReturn => absurd isReturn (by decide)
    rw [comment, toList_tagged, toList_tagged, flatten_append (by decide) (by decide) (by decide),
      flatten_append (by decide) (by decide) (by decide), opening, opening,
      rebroken.flatten_eq line (by decide) (by decide)]
  have marked : Text.contains mark (before ++ "@typedef \x7b" ++ text' ++ "\x7d" ++ after) =
      Text.contains mark d.comment := by
    have foreign : ∀ c ∈ layoutChars, c ∉ mark.toList := by simp [layoutChars, mark]
    have same := @Rebroken.infix_iff _ _ mark.toList rebroken (by decide) foreign
      (before.toList ++ "@typedef ".toList ++ ['\x7b']) ('\x7d' :: after.toList)
    simp only [List.append_assoc, List.singleton_append] at same
    rw [Bool.eq_iff_iff, Text.contains, Text.contains, Text.occursIn_eq_true_iff,
      Text.occursIn_eq_true_iff, comment, toList_tagged, toList_tagged, List.append_assoc,
      List.append_assoc]
    exact same
  obtain ⟨sources, params, returns, findings⟩ := expand_of_flatten flat marked
  refine ⟨params, returns, findings, fun first braced => ?_⟩
  rw [sources, source, comment, annotation?_tagged after first line braced]
  rfl

/-- Line ends of both kinds, and a star of the type that comes first on its line. -/
theorem expand_rebroken_star :
    let text := "function(A, *): B"
    let text' := "function(A,\n * *):\r\n\t*  B"
    let comment := fun type => "/** " ++ "@typedef \x7b" ++ type ++ "\x7d" ++ " */"
    let d : Doclet := { typedefOfText "function" with comment := comment text }
    let d' : Doclet := { d with comment := comment text' }
    OneLine text.toList ∧ Rebroken text.toList text'.toList ∧
      (expand d').1.params = (expand d).1.params ∧ (expand d').1.returns = (expand d).1.returns ∧
      (expand d').2 = (expand d).2 ∧ source d' = text ∧
      (expand d').1.params.map Param.alternatives = [["A"], ["*"]] := by
  intro text text' comment d d'
  have line : OneLine text.toList := ⟨by decide, by decide⟩
  have blanks : ∀ {s : List Char}, s.all isMarginBlank = true → ∀ c ∈ s, isMarginBlank c = true :=
    List.all_eq_true.1
  have first : IsLineBreak "\n * ".toList :=
    .lineFeed (@IsMargin.star [' '] [' '] (blanks rfl) (blanks rfl) (by decide))
  have second : IsLineBreak "\r\n\t*  ".toList :=
    .carriageReturn (@IsMargin.star ['\t'] [' ', ' '] (blanks rfl) (blanks rfl) (by decide))
  have rebroken : Rebroken text.toList text'.toList := by
    have before : text.toList = "function(A,".toList ++ ' ' :: ("*):".toList ++ [' ', 'B']) := by
      decide
    have after : text'.toList = "function(A,".toList ++ ("\n * ".toList ++ ("*):".toList ++
        ("\r\n\t*  ".toList ++ ['B']))) := by decide
    rw [before, after]
    exact (Rebroken.refl _).append
      (.wrap first ((Rebroken.refl _).append (.wrap second (Rebroken.refl ['B']))))
  have braced : Braced text.toList := .of_plain (by decide) (by decide)
  obtain ⟨params, returns, findings, read⟩ := expand_rebroken (d := d) rfl line rebroken
  have sources : source d' = text := (read (by decide) braced).trans (by decide)
  have found : (readSignature? (source d')).map (fun signature =>
      signature.params.map Param.alternatives) = some [["A"], ["*"]] := by
    rw [sources]
    decide
  obtain ⟨signature, recovered, types⟩ := Option.map_eq_some_iff.1 found
  refine ⟨line, rebroken, params, returns, findings, sources, ?_⟩
  rw [expand_of_read (by decide) (by decide) recovered]
  exact types

end Ambient.FunctionTypedef
