import Ambient.CommandLine.Invocation
import Ambient.Delivery
import Ambient.Doclet.Codec
/-!
# Running from the command line

## Main definitions

* `Mishap`: why a run ends early, with the line that is printed about it.
* `Report`: what a run prints, and whether it succeeded.
* `Invocation.run`: read settings and records, write the declarations.
* `runCommandLine`: the same for the words of a command line.
-/

namespace Ambient

/-- Why a run ends early. -/
inductive Mishap
  | usage (error : UsageError)
  | loading (path : String) (failure : Failure)
  /-- The settings with those of the command line in them are such that no run can work with
  them. -/
  | settings (problem : Config.Problem)
  | standardInput (fault : FileFault)
  | reading (path : String) (fault : FileFault)
  /-- A file holds no list of records. -/
  | doclets (path : String)
  | writing (path : String) (failure : Failure)
  | writingPublicTypes (path : String) (failure : Failure)
  /-- There were warnings, and none are allowed. -/
  | warnings (count : Nat)
  deriving DecidableEq, Repr

namespace Mishap

/-- The text about a mishap. -/
def message : Mishap → String
  | .usage error => error.message
  | .loading path failure => "Failed to load config " ++ path ++ ": " ++ failure.chain
  | .settings problem => (Failure.settings problem).chain
  | .standardInput fault => "Failed to read doclets from stdin: " ++ fault.message
  | .reading path fault => "Failed to read " ++ path ++ ": " ++ fault.message
  | .doclets path => "Invalid doclet JSON in " ++ path
  | .writing path failure => "Failed to write declarations to " ++ path ++ ": " ++ failure.chain
  | .writingPublicTypes path failure =>
    "Failed to write public types to " ++ path ++ ": " ++ failure.chain
  | .warnings count => "generation produced " ++ toString count ++ " warning(s)"

/-- Whether the text leaves out where a text to be read is wrong. -/
def isOpen : Mishap → Bool
  | .loading _ failure => failure.isOpen
  | .writing _ failure => failure.isOpen
  | .writingPublicTypes _ failure => failure.isOpen
  | .doclets _ => true
  | _ => false

/-- What is printed about a mishap. The line is left open if its text is. -/
def line (mishap : Mishap) : String :=
  "error: " ++ mishap.message ++ if mishap.isOpen then "" else "\n"

end Mishap

/-- What a run prints, and whether it succeeded. -/
structure Report where
  output : String := ""
  errors : String := ""
  succeeded : Bool := true
  deriving DecidableEq, Repr

/-- The report with one more line of output. -/
def Report.say (r : Report) (text : String) : Report :=
  { r with output := r.output ++ text ++ "\n" }

/-- The report with one more line about what was found. -/
def Report.note (r : Report) (text : String) : Report :=
  { r with errors := r.errors ++ text ++ "\n" }

/-- The report of a run that ended early. -/
def Report.fail (r : Report) (mishap : Mishap) : Report :=
  { r with errors := r.errors ++ mishap.line, succeeded := false }

namespace Invocation

variable {m : Type → Type} [Monad m]

/-- A configuration with the settings of the command line in it. -/
def adjust (i : Invocation) (c : Config) : Config :=
  { c with
    outDir := i.outDir.getD c.outDir
    rootModuleName := i.root.getD c.rootModuleName }

/-- The configuration of a run. -/
def effectiveConfig (files : FileAccess m) (i : Invocation) : ExceptT Mishap m Config := do
  let c ← match i.config with
    | some path => ExceptT.mk (return (← Config.load files path).mapError (.loading path))
    | none => pure {}
  ExceptT.mk (pure ((i.adjust c).check.mapError .settings))

/-- The records of a run. -/
def loadDoclets (files : FileAccess m) (standardInput : m (Except FileFault String))
    (i : Invocation) : ExceptT Mishap m (List Doclet) := do
  let text ←
    if i.doclets = "-" then ExceptT.mk (return (← standardInput).mapError .standardInput)
    else ExceptT.mk (return (← files.readText i.doclets).mapError (.reading i.doclets))
  match Doclet.listOfText text with
  | .ok doclets => pure doclets
  | .error _ => throw (.doclets i.doclets)

/-- Write what the command line asks for. The result is the report so far, with what went wrong. -/
def deliver (files : FileAccess m) (i : Invocation) (c : Config) (o : Output) : m Report := do
  match ← (o.write files c).run with
  | .error failure => pure ((({} : Report)).fail (.writing c.declarationPath failure))
  | .ok path =>
    let report := ({} : Report).say ("Generated " ++ path)
    let dumped : Except Failure Unit ← match i.publicTypes with
      | some path => (o.writeListing files path).run
      | none => pure (.ok ())
    match dumped with
    | .error failure => pure (report.fail (.writingPublicTypes (i.publicTypes.getD "") failure))
    | .ok () =>
      if i.denyWarnings && o.stats.warnings > 0 then
        let report := o.findings.foldl (fun r d => r.note d.format) report
        pure (report.fail (.warnings o.stats.warnings))
      else pure report

/-- Read settings and records, and write the declarations. -/
def run (files : FileAccess m) (standardInput : m (Except FileFault String)) (i : Invocation) :
    m Report := do
  let input : Except Mishap (Config × List Doclet) ← (do
    let c ← i.effectiveConfig files
    let doclets ← i.loadDoclets files standardInput
    pure (c, doclets)).run
  match input with
  | .error mishap => pure ((({} : Report)).fail mishap)
  | .ok (config, doclets) =>
    let (_, o) := (({ config } : Session).addAll doclets).generate
    i.deliver files config o

end Invocation

/-- Run what a command line asks for. -/
def runCommandLine {m : Type → Type} [Monad m] (files : FileAccess m)
    (standardInput : m (Except FileFault String)) (words : List String) : m Report :=
  match Invocation.parse words with
  | .error error => pure (({} : Report).fail (.usage error))
  | .ok none => pure (({} : Report).say usage)
  | .ok (some invocation) => invocation.run files standardInput

end Ambient
