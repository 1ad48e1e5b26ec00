import Ambient.Page
import Ambient.Proofs.Occurrences
/-!
# Documentation comments are closed once

What stands in a documentation comment is text that anybody may have written. Wherever it holds the
end of a comment the two characters are parted, and each of its lines is written behind a star and a
blank. So the end of a comment is written once, by the last line.

## Main definitions

* `Page.endMark`: the end of a comment.
* `Page.Closeless`: a text that does not close a comment.

## Main statements

* `Page.closeless_commentText`: no line inside of a documentation comment closes it.
* `Page.run_commentLines`: neither do several lines.
* `Page.commentBlock_closed_once`: a documentation comment is closed at its very end only.
-/

namespace Ambient.Page

/-- The end of a comment. -/
def endMark : List Char := ['*', '/']

theorem endMark_ne_nil : endMark ≠ [] := List.cons_ne_nil _ _

/-- A text that does not close a comment. -/
def Closeless (s : List Char) : Prop := ¬ endMark <:+: s

instance (s : List Char) : Decidable (Closeless s) :=
  inferInstanceAs (Decidable (¬ endMark <:+: s))

namespace Closeless

variable {s t : List Char}

theorem nil : Closeless [] := by decide

/-- Texts with a character between them that is not of the end of a comment. -/
theorem append_cons (h : Closeless s) (h' : Closeless t) {c : Char} (foreign : c ∉ endMark) :
    Closeless (s ++ c :: t) := by
  intro closing
  rcases (Text.infix_append_cons_iff endMark_ne_nil foreign).1 closing with left | right
  · exact h left
  · exact h' right

/-- A text behind the margin of a line. -/
theorem margin (h : Closeless s) (level : Nat) : Closeless ((Page.margin level).toList ++ s) := by
  unfold Page.margin
  rw [String.toList_ofList]
  induction 4 * level with
  | zero => exact h
  | succ n ih => exact append_cons nil ih (by decide)

end Closeless

/-! ## Lines -/

/-- What is written behind the margin for a line of a documentation comment. -/
def commentText (text : String) : String :=
  if (Text.replaced "*/" "*\\/" text).isEmpty then " *"
  else " * " ++ Text.replaced "*/" "*\\/" text

theorem commentLine_eq (text : String) : Step.commentLine text = .line (commentText text) := rfl

theorem isEmpty_commentText (text : String) : (commentText text).isEmpty = false := by
  unfold commentText
  split
  · rfl
  · rw [String.isEmpty_eq_false_iff]
    intro none
    exact absurd (String.append_eq_empty_iff.1 none).1 (by decide)

/-- **No line of a documentation comment closes it.** -/
theorem closeless_commentText (text : String) : Closeless (commentText text).toList := by
  have star : Closeless [' ', '*'] := by decide
  have parted : Closeless (Text.replaced "*/" "*\\/" text).toList := by
    rw [Text.replaced, String.toList_ofList]
    exact Text.not_infix_replaceAll (by decide) (by decide) (by decide) text.toList
  unfold commentText
  split
  · exact star
  · rw [String.toList_append]
    exact star.append_cons parted (by decide)

theorem toList_lineAt {text : String} (filled : text.isEmpty = false) (level : Nat) :
    (lineAt level text).toList = (margin level).toList ++ (text.toList ++ ['\n']) := by
  unfold lineAt
  rw [filled, if_neg Bool.false_ne_true, String.toList_append, String.toList_append,
    List.append_assoc]
  rfl

/-- **Several lines of a documentation comment do not close it**, together with what follows them if
that does not. -/
theorem run_commentLines (p : Page) (texts : List String) :
    ∃ body, p.run (texts.map Step.commentLine) = { p with text := p.text ++ body } ∧
      ∀ rest, Closeless rest → Closeless (body.toList ++ rest) := by
  induction texts generalizing p with
  | nil =>
    refine ⟨"", ?_, fun rest h => h⟩
    rw [String.append_empty]
    rfl
  | cons text texts ih =>
    let line := lineAt p.level (commentText text)
    obtain ⟨body, same, later⟩ := ih { p with text := p.text ++ line }
    refine ⟨line ++ body, ?_, fun rest h => ?_⟩
    · rw [List.map_cons, run_cons, commentLine_eq]
      rw [String.append_assoc] at same
      exact same
    · have parts : (line ++ body).toList ++ rest = (margin p.level).toList ++
          ((commentText text).toList ++ '\n' :: (body.toList ++ rest)) := by
        rw [String.toList_append, toList_lineAt (isEmpty_commentText text)]
        simp only [List.append_assoc, List.cons_append, List.nil_append]
      rw [parts]
      exact ((closeless_commentText text).append_cons (later rest h) (by decide)).margin p.level

/-! ## The whole comment -/

/-- Up to the star that closes the comment nothing closes it. -/
theorem closeless_opened (level : Nat) {body : String}
    (closeless : ∀ rest, Closeless rest → Closeless (body.toList ++ rest)) :
    Closeless
      ((margin level ++ "/**" ++ ("\n" ++ body ++ margin level ++ " ")).toList ++ ['*']) := by
  have mark : Closeless ['/', '*', '*'] := by decide
  have star : Closeless [' ', '*'] := by decide
  have parts : (margin level ++ "/**" ++ ("\n" ++ body ++ margin level ++ " ")).toList ++ ['*'] =
      (margin level).toList ++ (['/', '*', '*'] ++ '\n' ::
        (body.toList ++ ((margin level).toList ++ [' ', '*']))) := by
    simp only [String.toList_append, List.append_assoc]
    rfl
  rw [parts]
  exact (mark.append_cons (closeless _ (star.margin level)) (by decide)).margin level

/-- **A documentation comment is closed once.** At whatever level it starts and whatever its lines
are, the comment begins with its opening mark behind the margin, and the end of a comment stands in
it in one place, right before the last line end. Without lines there is no comment. -/
theorem commentBlock_closed_once (p : Page) (texts : List String) :
    (texts = [] → p.run (Step.commentBlock texts) = p) ∧
    (texts ≠ [] → ∃ body,
      let opened := margin p.level ++ "/**" ++ body
      let written := opened ++ "*/" ++ "\n"
      p.run (Step.commentBlock texts) = { p with text := p.text ++ written } ∧
      ∀ before after, written = before ++ "*/" ++ after → before = opened ∧ after = "\n") := by
  constructor
  · rintro rfl
    rfl
  · intro filled
    obtain ⟨body, same, closeless⟩ := run_commentLines (p.apply (.line "/**")) texts
    refine ⟨"\n" ++ body ++ margin p.level ++ " ", ?_, ?_⟩
    · have opening : lineAt p.level "/**" = margin p.level ++ "/**" ++ "\n" := rfl
      have closing : lineAt p.level " */" = margin p.level ++ (" " ++ "*/") ++ "\n" := rfl
      calc p.run (Step.commentBlock texts)
          = ((p.apply (.line "/**")).run (texts.map Step.commentLine)).apply (.line " */") := by
            unfold Step.commentBlock
            rw [List.isEmpty_eq_false_iff.2 filled, if_neg Bool.false_ne_true, run_cons, run_append]
            rfl
        _ = { p with text := p.text ++ lineAt p.level "/**" ++ body ++ lineAt p.level " */" } := by
            rw [same]
            rfl
        _ = _ := by simp only [opening, closing, String.append_assoc]
    · intro before after split
      have parts : ∀ first last : String,
          (first ++ "*/" ++ last).toList = first.toList ++ (['*', '/'] ++ last.toList) := by
        intro first last
        rw [String.append_assoc, String.toList_append, String.toList_append]
        rfl
      have lists := congrArg String.toList split
      rw [parts, parts] at lists
      have behind : ¬ ['*', '/'] <:+: ['/', '\n'] := by decide
      obtain ⟨first, last⟩ :=
        Text.eq_of_split_at_pair (closeless_opened p.level closeless) behind lists
      exact ⟨String.toList_inj.1 first, String.toList_inj.1 last⟩

/-- Lines that would close the comment, one behind the other. -/
theorem commentBlock_closed_once_stars :
    let p : Page := { text := "a\n", level := 1 }
    let texts := ["**/ x */", "", "/\n*/"]
    texts ≠ [] ∧
      (p.run (Step.commentBlock texts)).text =
        "a\n    /**\n     * **\\/ x *\\/\n     *\n     * /\n*\\/\n     */\n" ∧
      ∃ opened, (p.run (Step.commentBlock texts)).text = p.text ++ (opened ++ "*/" ++ "\n") ∧
        ∀ before after, opened ++ "*/" ++ "\n" = before ++ "*/" ++ after →
          before = opened ∧ after = "\n" := by
  intro p texts
  have filled : texts ≠ [] := by decide
  have lines : texts.map Step.commentLine =
      [.line " * **\\/ x *\\/", .line " *", .line " * /\n*\\/"] := by
    simp [texts, Step.commentLine, Text.replaced, Text.replaceAll, Text.dropStart?]
  obtain ⟨body, same, once⟩ := (commentBlock_closed_once p texts).2 filled
  refine ⟨filled, ?_, _, congrArg Page.text same, once⟩
  rw [Step.commentBlock, lines]
  decide

end Ambient.Page
