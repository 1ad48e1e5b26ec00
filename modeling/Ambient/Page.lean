import Ambient.Text.Blank
import Ambient.Text.Search
/-!
# Writing indented lines

Declarations are written as a list of steps, which are carried out on a page.

## Main definitions

* `Page`: the text so far and the level of indentation.
* `Page.Step`: go one level in, go one level out, write a line.
* `Page.run`: carry out steps.
* `Page.Step.lines`, `Page.Step.commentBlock`: the steps for a text of several lines and for a
  documentation comment.

## Main statements

* `Page.run_append`: steps are carried out from left to right.
-/

namespace Ambient

/-- The text written so far and the level of indentation. -/
structure Page where
  text : String := ""
  level : Nat := 0
  deriving DecidableEq, Repr

namespace Page

/-- One step of writing. -/
inductive Step
  /-- Go one level in. -/
  | indent
  /-- Go one level out; at the outermost level this does nothing. -/
  | unindent
  /-- Write a line at the current level. -/
  | line (text : String)
  deriving DecidableEq, Repr

/-- The blanks in front of a line: four a level. -/
def margin (level : Nat) : String :=
  String.ofList (List.replicate (4 * level) ' ')

/-- A line as it is written at a level. An empty line gets no margin. -/
def lineAt (level : Nat) (text : String) : String :=
  if text.isEmpty then "\n" else margin level ++ text ++ "\n"

/-- Whether the next line stands at the outermost level. -/
def isTopLevel (p : Page) : Bool := p.level == 0

/-- Whether nothing was written yet. -/
def isEmpty (p : Page) : Bool := p.text.isEmpty

/-- Carry out one step. -/
def apply (p : Page) : Step → Page
  | .indent => { p with level := p.level + 1 }
  | .unindent => { p with level := p.level - 1 }
  | .line text => { p with text := p.text ++ lineAt p.level text }

/-- Carry out steps from left to right. -/
def run (p : Page) (steps : List Step) : Page :=
  steps.foldl apply p

@[simp] theorem run_nil (p : Page) : p.run [] = p := rfl

@[simp] theorem run_cons (p : Page) (step : Step) (steps : List Step) :
    p.run (step :: steps) = (p.apply step).run steps := rfl

/-- Steps are carried out from left to right. -/
@[simp] theorem run_append (p : Page) (first second : List Step) :
    p.run (first ++ second) = (p.run first).run second :=
  List.foldl_append

namespace Step

/-- Write each line of a text, without blanks at its end. -/
def lines (text : String) : List Step :=
  (Text.linesOf text).map fun l => .line (Text.trimmedEnd l)

/-- A line inside a documentation comment. The end of the comment within the line is broken up. -/
def commentLine (text : String) : Step :=
  let safe := Text.replaced "*/" "*\\/" text
  .line (if safe.isEmpty then " *" else " * " ++ safe)

/-- A documentation comment of some lines; no lines make no comment. -/
def commentBlock (texts : List String) : List Step :=
  if texts.isEmpty then []
  else .line "/**" :: (texts.map commentLine ++ [.line " */"])

end Step

end Page

end Ambient
