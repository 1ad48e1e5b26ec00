import Ambient.Text.Search
/-!
# Findings

What a run has to say about its input besides the declarations it prints. Nothing here stops a run.

## Main definitions

* `Finding.Severity`, `Finding.Code`: how bad it is, and what kind of finding it is.
* `Finding`: a message, with the name it is about.
* `Finding.format`: one line, `subject: severity[code]: message`.
-/

namespace Ambient

namespace Finding

/-- How bad a finding is. -/
inductive Severity
  | warning
  | info
  | hint
  deriving DecidableEq, Repr

/-- The word printed for a severity. -/
def Severity.text : Severity → String
  | .warning => "warning"
  | .info => "info"
  | .hint => "hint"

/-- The kinds of finding. -/
inductive Code
  /-- A mentioned type name stands for nothing. -/
  | unresolvedType
  /-- A member, parameter or typedef has no type. -/
  | missingType
  /-- A bare `array` was widened to `any[]`. -/
  | untypedArray
  /-- The signature of a function-shaped typedef could not be read. -/
  | callbackUnmatched
  /-- A declaration has no description. -/
  | missingDocs
  /-- A class augments more than one type. -/
  | extraAugments
  deriving DecidableEq, Repr

/-- The identifier printed for a kind of finding. -/
def Code.text : Code → String
  | .unresolvedType => "unresolved-type"
  | .missingType => "missing-type"
  | .untypedArray => "untyped-array"
  | .callbackUnmatched => "callback-unmatched"
  | .missingDocs => "missing-docs"
  | .extraAugments => "extra-augments"

/-- All kinds of finding. -/
def Code.all : List Code :=
  [.unresolvedType, .missingType, .untypedArray, .callbackUnmatched, .missingDocs, .extraAugments]

/-- The kind of finding with a given identifier. -/
def Code.ofText? (text : String) : Option Code :=
  Code.all.find? fun code => code.text == text

end Finding

/-- A finding, with the name of the record or type it is about. -/
structure Finding where
  severity : Finding.Severity
  message : String
  subject : Option String := none
  code : Option Finding.Code := none
  deriving DecidableEq, Repr

namespace Finding

/-- A finding of a known kind about a name. -/
def about (severity : Severity) (code : Code) (subject message : String) : Finding :=
  { severity, message, subject := some subject, code := some code }

/-- One line: `subject: severity[code]: message`, where subject and code may be absent. -/
def format (f : Finding) : String :=
  let subject := match f.subject with
    | some subject => subject ++ ": "
    | none => ""
  let code := match f.code with
    | some code => "[" ++ code.text ++ "]"
    | none => ""
  subject ++ f.severity.text ++ code ++ ": " ++ f.message

/-- The number of warnings in a list of findings. -/
def countWarnings (fs : List Finding) : Nat :=
  fs.countP fun f => f.severity = .warning

/-- The findings whose kind has a given identifier. -/
def ofCode (identifier : String) (fs : List Finding) : List Finding :=
  fs.filter fun f => f.code.map Code.text = some identifier

end Finding

end Ambient
