import Ambient.TypeText
import Ambient.Page
/-!
# Renderings

A rendering is what is going to be written, with the type expressions still in it. Its text and what
there is to report about it are both computed from it, so no type is printed without a look at its
events, and none is looked at that is not printed.

## Main definitions

* `Piece`, `Line`: a part of a line, and a line as a list of them.
* `Rendering`: lines with their indentation, and findings between them.
* `Rendering.steps`: the steps that write a rendering.
* `Rendering.findings`: what there is to report about it.
* `Rendering.raws`: the type expressions in it.

## Main statements

* `Rendering.steps_append`, `Rendering.findings_append`, `Rendering.raws_append`: each view of one
  rendering after another is the one view after the other.
-/

namespace Ambient

/-- A part of a line. -/
inductive Piece
  /-- Text that is written as it is. -/
  | text (text : String)
  /-- The union of some type expressions, in the declaration of a subject. -/
  | types (subject : String) (raws : List String)
  /-- The same as the element of an array type: unions and function types get parentheses. -/
  | element (subject : String) (raws : List String)
  /-- The type of something that has none: `any`, with a warning. -/
  | untyped (warning : Finding)
  deriving DecidableEq, Repr

namespace Piece

/-- A type in parentheses if it is a union or a function type. -/
def parenthesized (type : String) : String :=
  if Text.contains "|" type || Text.contains "=>" type then "(" ++ type ++ ")" else type

/-- The text of a part. -/
def print (c : Config) : Piece → String
  | .text written => written
  | .types _ raws => (c.unionText raws).text
  | .element _ raws => parenthesized (c.unionText raws).text
  | .untyped _ => "any"

/-- What there is to report about a part. -/
def findings (c : Config) : Piece → List Finding
  | .text _ => []
  | .types subject raws => TypeText.findings subject (c.unionText raws).events
  | .element subject raws => TypeText.findings subject (c.unionText raws).events
  | .untyped warning => [warning]

/-- The type expressions of a part. -/
def raws : Piece → List String
  | .text _ => []
  | .types _ raws => raws
  | .element _ raws => raws
  | .untyped _ => []

end Piece

/-- A line as its parts from left to right. -/
abbrev Line := List Piece

namespace Line

/-- The text of a line. -/
def print (c : Config) : Line → String
  | [] => ""
  | piece :: rest => piece.print c ++ print c rest

/-- Lines put together to one, with a text between each two. -/
def joinWith (separator : String) : List Line → Line
  | [] => []
  | [line] => line
  | line :: next :: rest => line ++ .text separator :: joinWith separator (next :: rest)

@[simp] theorem print_append (c : Config) (first second : Line) :
    print c (first ++ second) = print c first ++ print c second := by
  induction first with
  | nil => simp [print]
  | cons piece rest ih => simp [print, ih, String.append_assoc]

end Line

namespace Rendering

/-- One entry of a rendering. -/
inductive Entry
  | indent
  | unindent
  | line (pieces : Line)
  /-- A finding. Nothing is written. -/
  | finding (finding : Finding)
  deriving DecidableEq, Repr

namespace Entry

/-- The writing step of an entry. -/
def step? (c : Config) : Entry → Option Page.Step
  | .indent => some .indent
  | .unindent => some .unindent
  | .line pieces => some (.line (pieces.print c))
  | .finding _ => none

/-- What there is to report about an entry. -/
def findings (c : Config) : Entry → List Finding
  | .indent | .unindent => []
  | .line pieces => pieces.flatMap (Piece.findings c)
  | .finding found => [found]

/-- The type expressions of an entry. -/
def raws : Entry → List String
  | .indent | .unindent | .finding _ => []
  | .line pieces => pieces.flatMap Piece.raws

/-- The entry that does a writing step. -/
def ofStep : Page.Step → Entry
  | .indent => .indent
  | .unindent => .unindent
  | .line text => .line [.text text]

end Entry

end Rendering

/-- What is going to be written, with the type expressions still in it. -/
structure Rendering where
  entries : List Rendering.Entry := []
  deriving DecidableEq, Repr

namespace Rendering

/-- One rendering after the other. -/
def append (first second : Rendering) : Rendering where
  entries := first.entries ++ second.entries

instance : Append Rendering := ⟨append⟩

/-- A single line. -/
def line (pieces : Line) : Rendering := { entries := [.line pieces] }

/-- A finding without a line. -/
def finding (finding : Finding) : Rendering := { entries := [.finding finding] }

/-- Writing steps without types in them. -/
def ofSteps (steps : List Page.Step) : Rendering := { entries := steps.map Entry.ofStep }

/-- A block: a line that opens it, its body one level further in, and a closing brace. -/
def block (header : Line) (body : Rendering) : Rendering where
  entries := .line (header ++ [.text " \x7b"]) :: .indent ::
    (body.entries ++ [.unindent, .line [.text "\x7d"]])

/-! ## Views -/

/-- The steps that write a rendering. -/
def steps (c : Config) (r : Rendering) : List Page.Step :=
  r.entries.filterMap (Entry.step? c)

/-- What there is to report about a rendering. -/
def findings (c : Config) (r : Rendering) : List Finding :=
  r.entries.flatMap (Entry.findings c)

/-- The type expressions in a rendering, in the order in which they are printed. -/
def raws (r : Rendering) : List String :=
  r.entries.flatMap Entry.raws

@[simp] theorem entries_append (first second : Rendering) :
    (first ++ second).entries = first.entries ++ second.entries := rfl

@[simp] theorem steps_append (c : Config) (first second : Rendering) :
    (first ++ second).steps c = first.steps c ++ second.steps c := by
  simp [steps]

@[simp] theorem findings_append (c : Config) (first second : Rendering) :
    (first ++ second).findings c = first.findings c ++ second.findings c := by
  simp [findings]

@[simp] theorem raws_append (first second : Rendering) :
    (first ++ second).raws = first.raws ++ second.raws := by
  simp [raws]

/-- A block writes its body between the line that opens it and its closing brace. -/
theorem steps_block (c : Config) (header : Line) (body : Rendering) :
    (block header body).steps c =
      .line (header.print c ++ " \x7b") :: .indent ::
        (body.steps c ++ [.unindent, .line "\x7d"]) := by
  simp [steps, block, Entry.step?, Line.print, Piece.print]

/-- Writing steps are carried out as they are. -/
@[simp] theorem steps_ofSteps (c : Config) (steps : List Page.Step) :
    (ofSteps steps).steps c = steps := by
  have same : Entry.step? c ∘ Entry.ofStep = some := by
    funext step
    cases step <;> simp [Entry.ofStep, Entry.step?, Line.print, Piece.print]
  simp only [Rendering.steps, ofSteps, List.filterMap_map, same, List.filterMap_some]

end Rendering

end Ambient
