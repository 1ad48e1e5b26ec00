import Ambient.Declaration.Rendering
import Ambient.Proofs.CommentBlock
/-!
# The lines of documentation comments

A comment is written line by line, each behind the margin and a star. The writer sets one margin for
each text that it gets, so a text with a line feed of its own goes on at the start of the next line.
Descriptions are cut into lines before they are written; the descriptions of parameters and return
values are not.

## Main definitions

* `Text.fedLines`: the lines of a text that a line feed ends.
* `Text.furtherLines`: the lines of a text behind its first one.
* `Page.IsCommentLine`: a line that starts as a line of a comment.
* `Rendering.StartsWithComment`: a rendering starts with a comment of some texts.
* `Declaration.commentTexts`: what the comment of a declaration is made of.
* `Declaration.commentTags`: the part of it that comes from parameters and return values.

## Main statements

* `Text.splitOn_replaceAll`: breaking up pairs of characters does not change where lines are cut.
* `Page.commentBlock_lines_iff`: every line of a comment is a comment line exactly if all further
  lines of its texts are by themselves.
* `Declaration.comment_lines_iff`: in the comment of a declaration only tags have further lines.
-/

namespace Ambient

/-! ## Cutting texts into lines -/

namespace Text

variable {isCut : Char → Bool} {a b c x : Char} {pre text u v piece : List Char}
  {pieces : List (List Char)}

theorem splitOn_eq_splitOnP (isCut : Char → Bool) (text : List Char) :
    splitOn isCut text = text.splitOnP isCut := by
  induction text with
  | nil => rfl
  | cons d text ih =>
    rw [splitOn, ih, List.splitOnP_cons_eq_if_modifyHead]
    cases split : text.splitOnP isCut with
    | nil => exact absurd split (List.splitOnP_ne_nil isCut text)
    | cons piece pieces => rfl

/-- A text is cut at each cutting character. -/
theorem splitOn_append_cons (cut : isCut c = true) (u v : List Char) :
    splitOn isCut (u ++ c :: v) = splitOn isCut u ++ splitOn isCut v := by
  simp only [splitOn_eq_splitOnP, List.splitOnP_append_cons u v cut]

/-- A text without cutting characters is one piece. -/
theorem splitOn_eq_singleton (uncut : ∀ d ∈ u, isCut d = false) : splitOn isCut u = [u] := by
  rw [splitOn_eq_splitOnP, List.splitOnP_eq_singleton uncut]

/-- What has no cutting character belongs to the piece behind it. -/
theorem splitOn_append_of_uncut (uncut : ∀ d ∈ u, isCut d = false)
    (split : splitOn isCut v = piece :: pieces) :
    splitOn isCut (u ++ v) = (u ++ piece) :: pieces := by
  induction u with
  | nil => exact split
  | cons d u ih =>
    rw [List.forall_mem_cons] at uncut
    rw [List.cons_append, splitOn, ih uncut.2, uncut.1]
    rfl

theorem exists_splitOn (isCut : Char → Bool) (text : List Char) :
    ∃ piece pieces, splitOn isCut text = piece :: pieces :=
  List.exists_cons_of_ne_nil (splitOn_ne_nil isCut text)

/-- A text starts with its first piece. -/
theorem prefix_of_splitOn (split : splitOn isCut text = piece :: pieces) : piece <+: text := by
  induction text generalizing piece pieces with
  | nil =>
    cases split
    exact List.prefix_refl []
  | cons d text ih =>
    rw [splitOn] at split
    by_cases here : isCut d = true
    · rw [if_pos here] at split
      cases split
      exact List.nil_prefix
    · obtain ⟨first, others, inner⟩ := exists_splitOn isCut text
      rw [if_neg here, inner] at split
      cases split
      exact (List.prefix_cons_inj d).2 (ih inner)

/-! ## Lines -/

/-- A line feed. -/
def isFeed (c : Char) : Bool := c == '\n'

/-- The lines of a text that a line feed ends. -/
def fedLines (text : List Char) : List (List Char) := (splitOn isFeed text).dropLast

/-- The lines of a text behind its first one. -/
def furtherLines (text : String) : List (List Char) := (splitOn isFeed text.toList).tail

theorem isFeed_eq_false_of_ne (other : c ≠ '\n') : isFeed c = false := by
  simpa [isFeed] using other

theorem furtherLines_eq_nil {text : String} (oneLine : '\n' ∉ text.toList) :
    furtherLines text = [] := by
  have uncut : ∀ c ∈ text.toList, isFeed c = false := by
    intro c mem
    refine isFeed_eq_false_of_ne ?_
    rintro rfl
    exact oneLine mem
  rw [furtherLines, splitOn_eq_singleton uncut]
  rfl

/-- The lines up to a line feed, and those behind it. -/
theorem fedLines_append_feed (u v : List Char) :
    fedLines (u ++ '\n' :: v) = splitOn isFeed u ++ fedLines v := by
  rw [fedLines, splitOn_append_cons rfl, List.dropLast_append_of_ne_nil (splitOn_ne_nil _ _),
    fedLines]

/-- The lines of a text have no line feed. -/
theorem not_mem_of_mem_lines {line : List Char} (mem : line ∈ lines text) : '\n' ∉ line := by
  induction text using lines.induct generalizing line with
  | case1 => cases mem
  | case2 text ih =>
    rcases List.mem_cons.1 mem with rfl | later
    · exact List.not_mem_nil
    · exact ih later
  | case3 text ih =>
    rcases List.mem_cons.1 mem with rfl | later
    · exact List.not_mem_nil
    · exact ih later
  | case4 d text noFeed noReturn last ih =>
    rw [lines.eq_4 d text noFeed noReturn, last, List.mem_singleton] at mem
    subst mem
    simpa using Ne.symm noFeed
  | case5 d text noFeed noReturn first rest split ih =>
    rw [lines.eq_4 d text noFeed noReturn, split] at mem
    rcases List.mem_cons.1 mem with rfl | later
    · intro feed
      rcases List.mem_cons.1 feed with same | inside
      · exact noFeed same.symm
      · exact ih (split ▸ List.mem_cons_self) inside
    · exact ih (split ▸ List.mem_cons_of_mem first later)

/-! ## Pairs that are broken up -/

theorem replaceAll_pair (a b : Char) (replacement text : List Char) :
    replaceAll [a, b] replacement (a :: b :: text) =
      replacement ++ replaceAll [a, b] replacement text := by
  have here : (dropStart? [a, b] (a :: b :: text)).isSome = true :=
    isSome_dropStart?_iff.2 (List.prefix_append [a, b] text)
  rw [replaceAll, if_pos here]
  rfl

/-- Breaking up pairs does not change how a text starts, as far as no pair is part of the start. -/
theorem prefix_replaceAll_iff (whole : ¬ [a, b] <:+: pre) (foreign : x ∉ pre) :
    pre <+: replaceAll [a, b] [a, x, b] text ↔ pre <+: text := by
  induction pre generalizing text with
  | nil => simp
  | cons p pre ih =>
    have whole' : ¬ [a, b] <:+: pre :=
      fun inside => whole (inside.trans (List.suffix_cons p pre).isInfix)
    have foreign' : x ∉ pre := fun mem => foreign (List.mem_cons_of_mem p mem)
    cases text with
    | nil => rw [replaceAll]
    | cons c text =>
      rw [replaceAll]
      split
      · rename_i here
        obtain ⟨rest, same⟩ := isSome_dropStart?_iff.1 here
        obtain ⟨rfl, rfl⟩ : a = c ∧ b :: rest = text := List.cons.inj same
        cases pre with
        | nil => simp
        | cons q pre =>
          -- The start goes on neither with the one character nor with the other.
          have notNew : ¬ q = x := fun same => foreign (same ▸ by simp)
          have notOld : ¬ (p = a ∧ q = b) := by
            rintro ⟨rfl, rfl⟩
            exact whole (List.prefix_append [p, q] pre).isInfix
          simp only [List.cons_append, List.cons_prefix_cons, notNew, false_and, and_false,
            false_iff, not_and]
          exact fun first second => absurd ⟨first, second⟩ notOld
      · rw [List.cons_prefix_cons, List.cons_prefix_cons, ih whole' foreign']

/-- Breaking up pairs does not change where a text is cut. -/
theorem splitOn_replaceAll (left : isCut a = false) (mid : isCut x = false)
    (right : isCut b = false) (text : List Char) :
    splitOn isCut (replaceAll [a, b] [a, x, b] text) =
      (splitOn isCut text).map (replaceAll [a, b] [a, x, b]) := by
  fun_induction replaceAll [a, b] [a, x, b] text with
  | case1 => simp [splitOn, replaceAll]
  | case2 c text here ih =>
    obtain ⟨rest, same⟩ := isSome_dropStart?_iff.1 here
    obtain ⟨rfl, rfl⟩ : a = c ∧ b :: rest = text := List.cons.inj same
    obtain ⟨piece, pieces, split⟩ := exists_splitOn isCut rest
    have inner : splitOn isCut (replaceAll [a, b] [a, x, b] rest) =
        replaceAll [a, b] [a, x, b] piece :: pieces.map (replaceAll [a, b] [a, x, b]) := by
      have later := ih
      rw [show (b :: rest).drop ([a, b].length - 1) = rest from rfl, split] at later
      exact later
    have old : ∀ d ∈ [a, b], isCut d = false := by simp [left, right]
    have new : ∀ d ∈ [a, x, b], isCut d = false := by simp [left, mid, right]
    have whole : splitOn isCut (a :: b :: rest) = (a :: b :: piece) :: pieces :=
      splitOn_append_of_uncut old split
    rw [whole, List.map_cons, replaceAll_pair]
    exact splitOn_append_of_uncut new inner
  | case3 c text apart ih =>
    obtain ⟨piece, pieces, split⟩ := exists_splitOn isCut text
    by_cases cut : isCut c = true
    · simp [splitOn, cut, ih, replaceAll]
    · have start : replaceAll [a, b] [a, x, b] (c :: piece) =
          c :: replaceAll [a, b] [a, x, b] piece := by
        rw [replaceAll, if_neg]
        intro here
        refine apart (isSome_dropStart?_iff.2 ?_)
        have longer := (List.prefix_cons_inj c).2 (prefix_of_splitOn split)
        exact (isSome_dropStart?_iff.1 here).trans longer
      simp [splitOn, cut, ih, split, start]

end Text

/-! ## Lines of comments -/

namespace Page

/-- A line that starts as a line of a comment does: with the margin of its level, and then with the
opening mark or with a blank and a star. -/
def IsCommentLine (level : Nat) (line : List Char) : Prop :=
  (margin level).toList ++ ['/', '*', '*'] <+: line ∨ (margin level).toList ++ [' ', '*'] <+: line

instance (level : Nat) (line : List Char) : Decidable (IsCommentLine level line) :=
  inferInstanceAs (Decidable (_ ∨ _))

/-- A text in which every end of a comment is broken up. -/
def parted (text : List Char) : List Char := Text.replaceAll ['*', '/'] ['*', '\\', '/'] text

variable {level : Nat} {line : List Char}

theorem not_mem_margin {c : Char} (noSpace : c ≠ ' ') (level : Nat) :
    c ∉ (margin level).toList := by
  intro mem
  rw [margin, String.toList_ofList] at mem
  exact noSpace (List.eq_of_mem_replicate mem)

/-- Breaking up the end of a comment in a line does not change how it starts. -/
theorem isCommentLine_parted_iff :
    IsCommentLine level (parted line) ↔ IsCommentLine level line := by
  have noSlash : '\\' ∉ (margin level).toList := not_mem_margin (by decide) level
  have opening : Closeless ((margin level).toList ++ ['/', '*', '*']) :=
    Closeless.margin (by decide) level
  have star : Closeless ((margin level).toList ++ [' ', '*']) := Closeless.margin (by decide) level
  unfold IsCommentLine parted
  rw [Text.prefix_replaceAll_iff opening (by simp [noSlash]),
    Text.prefix_replaceAll_iff star (by simp [noSlash])]

/-- What some lines of text are written as. -/
theorem run_lines (p : Page) {texts : List String} (filled : ∀ t ∈ texts, t.isEmpty = false) :
    ∃ written, p.run (texts.map Step.line) = { p with text := p.text ++ written } ∧
      Text.fedLines written.toList =
        texts.flatMap fun t => Text.splitOn Text.isFeed ((margin p.level).toList ++ t.toList) := by
  induction texts generalizing p with
  | nil => exact ⟨"", by rw [String.append_empty]; rfl, rfl⟩
  | cons t texts ih =>
    rw [List.forall_mem_cons] at filled
    obtain ⟨written, same, lines⟩ := ih { p with text := p.text ++ lineAt p.level t } filled.2
    refine ⟨lineAt p.level t ++ written, ?_, ?_⟩
    · rw [List.map_cons, run_cons]
      rw [String.append_assoc] at same
      exact same
    · have parts : (lineAt p.level t ++ written).toList =
          ((margin p.level).toList ++ t.toList) ++ '\n' :: written.toList := by
        rw [String.toList_append, toList_lineAt filled.1]
        simp only [List.append_assoc, List.cons_append, List.nil_append]
      rw [parts, Text.fedLines_append_feed, lines]
      rfl

/-- The first line of a text in a comment starts with a star, and its further lines are as they
are. -/
theorem splitOn_commentText (text : String) :
    ∃ start, [' ', '*'] <+: start ∧ Text.splitOn Text.isFeed (commentText text).toList =
      start :: (Text.furtherLines text).map parted := by
  obtain ⟨piece, pieces, split⟩ := Text.exists_splitOn Text.isFeed text.toList
  have safe : (Text.replaced "*/" "*\\/" text).toList = parted text.toList := by
    rw [Text.replaced, String.toList_ofList]
    rfl
  have cut : Text.splitOn Text.isFeed (Text.replaced "*/" "*\\/" text).toList =
      parted piece :: (Text.furtherLines text).map parted := by
    rw [safe, parted, Text.splitOn_replaceAll rfl rfl rfl, Text.furtherLines, split]
    rfl
  unfold commentText
  split
  · rename_i bare
    rw [String.isEmpty_iff.1 bare] at cut
    have none := (List.cons.inj cut).2
    exact ⟨[' ', '*'], List.prefix_refl _, by rw [← none]; rfl⟩
  · have star : ∀ c ∈ [' ', '*', ' '], Text.isFeed c = false := by simp [Text.isFeed]
    refine ⟨[' ', '*', ' '] ++ parted piece, ⟨' ' :: parted piece, rfl⟩, ?_⟩
    rw [String.toList_append]
    exact Text.splitOn_append_of_uncut star cut

theorem isFeed_margin (level : Nat) : ∀ c ∈ (margin level).toList, Text.isFeed c = false := by
  intro c mem
  refine Text.isFeed_eq_false_of_ne ?_
  rintro rfl
  exact not_mem_margin (by decide) level mem

/-- Of a text in a comment the first line is a comment line, whatever the text is. -/
theorem forall_mem_commentText_iff (level : Nat) (text : String) :
    (∀ line ∈ Text.splitOn Text.isFeed ((margin level).toList ++ (commentText text).toList),
      IsCommentLine level line) ↔
    ∀ line ∈ Text.furtherLines text, IsCommentLine level line := by
  obtain ⟨start, star, cut⟩ := splitOn_commentText text
  have first : IsCommentLine level ((margin level).toList ++ start) :=
    Or.inr ((List.prefix_append_right_inj _).2 star)
  rw [Text.splitOn_append_of_uncut (isFeed_margin level) cut, List.forall_mem_cons,
    List.forall_mem_map]
  simp only [first, true_and, isCommentLine_parted_iff]

/-- **Every line of a comment is a comment line exactly if the further lines of its texts are.** -/
theorem commentBlock_lines_iff (p : Page) (texts : List String) :
    ∃ written, p.run (Step.commentBlock texts) = { p with text := p.text ++ written } ∧
      ((∀ line ∈ Text.fedLines written.toList, IsCommentLine p.level line) ↔
        ∀ text ∈ texts, ∀ line ∈ Text.furtherLines text, IsCommentLine p.level line) := by
  cases bare : texts.isEmpty with
  | true =>
    rw [List.isEmpty_iff.1 bare]
    exact ⟨"", by rw [String.append_empty]; rfl, by simp [Text.fedLines, Text.splitOn]⟩
  | false =>
    have filled : ∀ t ∈ "/**" :: (texts.map commentText ++ [" */"]), t.isEmpty = false := by
      intro t mem
      simp only [List.mem_cons, List.mem_append, List.mem_map, List.not_mem_nil, or_false] at mem
      rcases mem with rfl | ⟨text, -, rfl⟩ | rfl
      · rfl
      · exact isEmpty_commentText text
      · rfl
    have steps : Step.commentBlock texts =
        ("/**" :: (texts.map commentText ++ [" */"])).map Step.line := by
      simp [Step.commentBlock, bare, Function.comp_def, commentLine_eq]
    obtain ⟨written, same, lines⟩ := run_lines p filled
    refine ⟨written, steps ▸ same, ?_⟩
    have uncut := isFeed_margin p.level
    have opening : Text.splitOn Text.isFeed ((margin p.level).toList ++ "/**".toList) =
        [(margin p.level).toList ++ ['/', '*', '*']] := Text.splitOn_append_of_uncut uncut rfl
    have closing : Text.splitOn Text.isFeed ((margin p.level).toList ++ " */".toList) =
        [(margin p.level).toList ++ [' ', '*', '/']] := Text.splitOn_append_of_uncut uncut rfl
    have ends : IsCommentLine p.level ((margin p.level).toList ++ ['/', '*', '*']) ∧
        IsCommentLine p.level ((margin p.level).toList ++ [' ', '*', '/']) :=
      ⟨Or.inl (List.prefix_refl _), Or.inr ((List.prefix_append_right_inj _).2 ⟨['/'], rfl⟩)⟩
    rw [lines]
    simp only [List.flatMap_cons, List.flatMap_append, List.flatMap_nil, opening, closing,
      List.forall_mem_append, List.forall_mem_singleton, List.append_nil, ends.1, ends.2, true_and,
      and_true, List.forall_mem_flatMap, List.forall_mem_map, forall_mem_commentText_iff]

end Page

/-! ## The comments of declarations -/

theorem not_mem_toList_of_mem_linesOf {text line : String} (mem : line ∈ Text.linesOf text) :
    '\n' ∉ line.toList := by
  obtain ⟨chars, inside, rfl⟩ := List.mem_map.1 mem
  rw [String.toList_ofList]
  exact Text.not_mem_of_mem_lines inside

/-- A description is cut into lines, so none of them has a line feed. -/
theorem not_mem_toList_of_mem_descriptionLines {description : Option String} {line : String}
    (mem : line ∈ descriptionLines description) : '\n' ∉ line.toList := by
  cases description with
  | none => cases mem
  | some text =>
    obtain ⟨cut, inside, rfl⟩ := List.mem_map.1 mem
    rw [Text.trimmedEnd, String.toList_ofList]
    intro feed
    refine not_mem_toList_of_mem_linesOf inside ?_
    obtain ⟨after, -, whole⟩ := Text.exists_dropped_append Text.isBlank cut.toList
    rw [← whole]
    exact List.mem_append_left after feed

/-- What holds of texts without line feeds holds of a comment if it holds of its tags. -/
theorem forall_mem_docLines_iff {P : String → Prop}
    (oneLine : ∀ text : String, '\n' ∉ text.toList → P text) (c : Config)
    (description : Option String) {label : String} (plain : '\n' ∉ label.toList)
    (tags : List String) :
    (∀ text ∈ docLines c description label tags, P text) ↔ ∀ tag ∈ tags, P tag := by
  have blank : P "" := oneLine "" List.not_mem_nil
  have todo : P ("TODO: This " ++ label ++ " is undocumented.") := by
    refine oneLine _ ?_
    simp only [String.toList_append, List.mem_append, not_or]
    exact ⟨⟨by decide, plain⟩, by decide⟩
  have described : ∀ text ∈ descriptionLines description, P text :=
    fun text mem => oneLine text (not_mem_toList_of_mem_descriptionLines mem)
  have front : ∀ text ∈ (if lacksDocs c description = true then
      ["TODO: This " ++ label ++ " is undocumented."] else descriptionLines description),
      P text := by
    split
    · exact List.forall_mem_singleton.2 todo
    · exact described
  unfold docLines
  generalize (if lacksDocs c description = true then
    ["TODO: This " ++ label ++ " is undocumented."] else descriptionLines description) = text
    at front
  show (∀ t ∈ if tags.isEmpty then text else if text.isEmpty then tags else text ++ "" :: tags,
    P t) ↔ _
  cases tags with
  | nil => simpa using front
  | cons tag tags =>
    split
    · rename_i none
      cases none
    · split
      · rfl
      · rw [List.forall_mem_append, List.forall_mem_cons]
        exact ⟨fun all => all.2.2, fun all => ⟨front, blank, all⟩⟩

theorem steps_docs (c : Config) (d : Doclet) (description : Option String) (label : String)
    (tags : List String) :
    (docs c d description label tags).steps c =
      (if c.outputDocletDefs then docletLines d else []) ++
        Page.Step.commentBlock (docLines c description label tags) := by
  unfold docs
  rw [Rendering.steps_append, Rendering.steps_ofSteps]
  split <;> rfl

/-- A rendering starts with a comment. Only the record of a declaration may stand in front of it, in
lines of another kind. -/
def Rendering.StartsWithComment (c : Config) (r : Rendering) (texts : List String) : Prop :=
  ∃ record rest, r.steps c = record ++ Page.Step.commentBlock texts ++ rest ∧
    ∀ step ∈ record, ∃ text, step = .line ("// " ++ text)

/-- What is documented starts with its documentation. -/
theorem startsWithComment_docs (c : Config) (d : Doclet) (description : Option String)
    (label : String) (tags : List String) (body : Rendering) :
    (docs c d description label tags ++ body).StartsWithComment c
      (docLines c description label tags) := by
  refine ⟨if c.outputDocletDefs then docletLines d else [], body.steps c, ?_, ?_⟩
  · rw [Rendering.steps_append, steps_docs]
  · intro step mem
    split at mem
    · obtain ⟨text, -, rfl⟩ := List.mem_map.1 mem
      exact ⟨text, rfl⟩
    · cases mem

namespace MemberReplacement

/-- What the comment of a replacement is made of. -/
def commentTexts (r : MemberReplacement) : List String :=
  match r.description with
  | some description => Text.linesOf description
  | none => []

theorem startsWithComment_render (c : Config) (r : MemberReplacement) :
    r.render.StartsWithComment c r.commentTexts := by
  refine ⟨[], Page.Step.lines r.declaration, ?_, fun _ mem => nomatch mem⟩
  unfold render commentTexts
  rw [Rendering.steps_ofSteps]
  cases r.description with
  | some description => rfl
  | none => rfl

/-- The description of a replacement is cut into lines, too. -/
theorem not_mem_toList_of_mem_commentTexts {r : MemberReplacement} {text : String}
    (mem : text ∈ r.commentTexts) : '\n' ∉ text.toList := by
  unfold commentTexts at mem
  cases given : r.description with
  | some description =>
    rw [given] at mem
    exact not_mem_toList_of_mem_linesOf mem
  | none =>
    rw [given] at mem
    cases mem

end MemberReplacement

namespace Member

/-- The lines for parameters and return values in a comment that a member gives itself. -/
def ownTags (m : Member) : List String :=
  match m.form with
  | .property => []
  | .method => tagLines m.doclet.params m.doclet.returns

/-- What a member is called in a note about its comment. -/
def commentLabel (m : Member) : String :=
  match m.form with
  | .property => "property"
  | .method => "function"

/-- The lines for parameters and return values in the comment of a member. A replacement has its own
comment, without any. -/
def commentTags (c : Config) (m : Member) : List String :=
  match c.memberReplacements.get? m.doclet.longname with
  | some _ => []
  | none => m.ownTags

/-- What the comment of a member is made of. -/
def commentTexts (c : Config) (m : Member) : List String :=
  match c.memberReplacements.get? m.doclet.longname with
  | some replacement => replacement.commentTexts
  | none => docLines c m.doclet.description m.commentLabel m.ownTags

theorem startsWithComment_render (c : Config) (level : Nat) (m : Member) :
    (m.render c level).StartsWithComment c (m.commentTexts c) := by
  unfold render commentTexts
  cases c.memberReplacements.get? m.doclet.longname with
  | some replacement => exact replacement.startsWithComment_render c
  | none =>
    show (m.renderOwn c level).StartsWithComment c
      (docLines c m.doclet.description m.commentLabel m.ownTags)
    unfold renderOwn commentLabel ownTags
    cases m.form with
    | property => exact startsWithComment_docs c m.doclet _ _ _ _
    | method => exact startsWithComment_docs c m.doclet _ _ _ _

/-- What holds of texts without line feeds holds of the comment of a member if it holds of its lines
for parameters and return values. -/
theorem forall_mem_commentTexts_iff {P : String → Prop}
    (oneLine : ∀ text : String, '\n' ∉ text.toList → P text) (c : Config) (m : Member) :
    (∀ text ∈ m.commentTexts c, P text) ↔ ∀ tag ∈ m.commentTags c, P tag := by
  unfold commentTexts commentTags
  cases c.memberReplacements.get? m.doclet.longname with
  | some replacement =>
    have described : ∀ text ∈ replacement.commentTexts, P text := fun text mem =>
      oneLine text (MemberReplacement.not_mem_toList_of_mem_commentTexts mem)
    simpa using described
  | none =>
    have plain : '\n' ∉ m.commentLabel.toList := by
      unfold commentLabel
      cases m.form <;> decide
    exact forall_mem_docLines_iff oneLine c _ plain _

end Member

theorem Doclet.startsWithComment_renderTypedef (c : Config) (d : Doclet) :
    (d.renderTypedef c).StartsWithComment c (docLines c d.description "type"
      (if d.hasSignature then tagLines d.params d.returns else [])) := by
  unfold renderTypedef
  split
  · exact startsWithComment_docs c d _ _ _ _
  · exact startsWithComment_docs c d _ _ _ _

namespace Declaration

/-- The lines for parameters and return values in the comment of a declaration. -/
def commentTags (c : Config) : Declaration → List String
  | .classType .. | .typedef _ _ (_ :: _) | .addedInterface _ | .addedAlias _ => []
  | .typedef d _ [] => if d.hasSignature then tagLines d.params d.returns else []
  | .member m => m.commentTags c
  | .ctor k => tagLines k.doclet.params []

/-- What the comment of a declaration is made of. -/
def commentTexts (c : Config) : Declaration → List String
  | .classType d isPublic members =>
    docLines c (d.classdesc <|> d.description) "class"
      (commentTags c (.classType d isPublic members))
  | .typedef d isPublic members =>
    docLines c d.description "type" (commentTags c (.typedef d isPublic members))
  | .member m => m.commentTexts c
  | .ctor k => docLines c (some (k.description c)) "constructor" (commentTags c (.ctor k))
  | .addedInterface _ | .addedAlias _ => []

/-- Every declaration starts with its comment. -/
theorem startsWithComment_render (c : Config) (level : Nat) (d : Declaration) :
    (d.render c level).StartsWithComment c (d.commentTexts c) := by
  match d with
  | .classType d isPublic members =>
    unfold render
    exact startsWithComment_docs c d _ _ _ _
  | .typedef d isPublic [] => exact d.startsWithComment_renderTypedef c
  | .typedef d isPublic (first :: others) =>
    unfold render
    exact startsWithComment_docs c d _ _ _ _
  | .member m => exact m.startsWithComment_render c level
  | .ctor k =>
    unfold render
    exact startsWithComment_docs c k.doclet _ _ _ _
  | .addedInterface i => exact ⟨[], _, (List.nil_append _).symm, fun _ mem => nomatch mem⟩
  | .addedAlias a => exact ⟨[], _, (List.nil_append _).symm, fun _ mem => nomatch mem⟩

/-- What holds of texts without line feeds holds of the comment of a declaration if it holds of its
lines for parameters and return values. -/
theorem forall_mem_commentTexts_iff {P : String → Prop}
    (oneLine : ∀ text : String, '\n' ∉ text.toList → P text) (c : Config) (d : Declaration) :
    (∀ text ∈ d.commentTexts c, P text) ↔ ∀ tag ∈ d.commentTags c, P tag := by
  match d with
  | .classType d isPublic members =>
    have plain : '\n' ∉ "class".toList := by decide
    exact forall_mem_docLines_iff oneLine c (d.classdesc <|> d.description) plain []
  | .typedef d isPublic members =>
    have plain : '\n' ∉ "type".toList := by decide
    exact forall_mem_docLines_iff oneLine c d.description plain _
  | .member m => exact m.forall_mem_commentTexts_iff oneLine c
  | .ctor k =>
    have plain : '\n' ∉ "constructor".toList := by decide
    exact forall_mem_docLines_iff oneLine c (some (k.description c)) plain _
  | .addedInterface _ => exact ⟨fun _ _ mem => (nomatch mem), fun _ _ mem => (nomatch mem)⟩
  | .addedAlias _ => exact ⟨fun _ _ mem => (nomatch mem), fun _ _ mem => (nomatch mem)⟩

/-- **In the comment of a declaration only tags have further lines.** The comment stands in front of
the declaration, behind nothing but its record. Whatever the declaration, the configuration and the
level are, all lines of the comment start as lines of a comment exactly if the further lines of its
`@param` and `@returns` texts do so by themselves; a class, a property, an interface or an alias has
none, and descriptions are cut into lines first. -/
theorem comment_lines_iff (c : Config) (p : Page) (d : Declaration) :
    (d.render c p.level).StartsWithComment c (d.commentTexts c) ∧
    ∃ written,
      p.run (Page.Step.commentBlock (d.commentTexts c)) = { p with text := p.text ++ written } ∧
      ((∀ line ∈ Text.fedLines written.toList, Page.IsCommentLine p.level line) ↔
        ∀ tag ∈ d.commentTags c, ∀ line ∈ Text.furtherLines tag,
          Page.IsCommentLine p.level line) := by
  obtain ⟨written, same, lines⟩ := Page.commentBlock_lines_iff p (d.commentTexts c)
  refine ⟨d.startsWithComment_render c p.level, written, same, lines.trans ?_⟩
  refine forall_mem_commentTexts_iff (fun text oneLine => ?_) c d
  rw [Text.furtherLines_eq_nil oneLine]
  exact fun line mem => nomatch mem

/-- The description of a parameter goes on in the next line. -/
theorem comment_line_unmarked :
    let described : Param :=
      { name := some "a", type := some ⟨["number"]⟩, description := some "first\nsecond" }
    let m : Member := .ofDoclet .method .moduleLevel
      { name := "f", longname := "f", kind := .function, params := [described] } {}
    let f : Declaration := .member m
    let block := Page.Step.commentBlock (f.commentTexts {})
    let written := "/**\n * @param a first\nsecond\n */\n"
    (∃ rest, (f.render {} 0).steps {} = block ++ rest) ∧
      ({} : Page).run block = { text := written } ∧
      ¬ ∀ line ∈ Text.fedLines written.toList, Page.IsCommentLine 0 line := by
  intro described m f block written
  have texts : f.commentTexts {} = ["@param a first\nsecond"] := by decide
  have line : Page.Step.commentLine "@param a first\nsecond" =
      .line " * @param a first\nsecond" := by
    simp [Page.Step.commentLine, Text.replaced, Text.replaceAll, Text.dropStart?]
  have docs : (docs {} m.doclet m.doclet.description "function"
      (tagLines m.doclet.params m.doclet.returns)).steps {} = block := steps_docs {} _ _ _ _
  have steps : (f.render {} 0).steps {} =
      block ++ (Rendering.line (m.methodLine {} 0)).steps {} := by
    rw [← docs, ← Rendering.steps_append]
    rfl
  refine ⟨⟨_, steps⟩, ?_, by decide⟩
  show ({} : Page).run (Page.Step.commentBlock (f.commentTexts {})) = _
  rw [texts, Page.Step.commentBlock, List.map_singleton, line]
  decide

end Declaration

end Ambient
