import Ambient.CommandLine.Argument
/-!
# Invocations

## Main definitions

* `Invocation`: the files and options of a run from the command line.
* `UsageError`: what is wrong with a command line, with `UsageError.message` as its text.
* `Invocation.parse`: the invocation that a command line stands for, or none if it asks for help.

The first argument that is wrong or asks for help decides.
-/

namespace Ambient

/-- The summary of the command line. -/
def usage : String :=
  "Usage: forge-tsd [OPTIONS] <DOCLETS>

Arguments:
  <DOCLETS>                 JSON doclet array printed by \x60jsdoc -X\x60 (\x60-\x60 reads stdin)

Options:
  -c, --config <FILE>       Config file (.toml, or JSON with an optional \"typescript\" section)
  -o, --out-dir <DIR>       Output directory (overrides outDir)
  -r, --root <NAME>         Root module name (overrides rootModuleName)
      --public-types <FILE> Also write the public type set as JSON
      --deny-warnings       Exit with an error if generation produced warnings
  -h, --help                Print this help"

/-- The files and options of a run. -/
structure Invocation where
  /-- The file with the records; a dash stands for the standard input. -/
  doclets : String
  config : Option String := none
  outDir : Option String := none
  root : Option String := none
  /-- The file for the list of public types. -/
  publicTypes : Option String := none
  denyWarnings : Bool := false
  deriving DecidableEq, Repr

/-- What is wrong with a command line. -/
inductive UsageError
  | valueMissing (s : Setting)
  | unknownFlag (word : String)
  /-- A second file with records. -/
  | unexpected (path : String)
  | docletsMissing
  deriving DecidableEq, Repr

/-- The text of a usage error. -/
def UsageError.message : UsageError → String
  | .valueMissing s => s.longFlag ++ " requires " ++ s.valueKind
  | .unknownFlag word => "Unknown flag: " ++ word ++ "\n\n" ++ usage
  | .unexpected path => "Unexpected argument: " ++ path
  | .docletsMissing => "Missing doclet file\n\n" ++ usage

namespace Invocation

/-- What is known of an invocation while its arguments are taken in. -/
structure Draft where
  doclets : Option String := none
  config : Option String := none
  outDir : Option String := none
  root : Option String := none
  publicTypes : Option String := none
  denyWarnings : Bool := false

/-- Take in an option; the last one of a kind counts. -/
def Draft.put (d : Draft) (value : String) : Setting → Draft
  | .config => { d with config := some value }
  | .outDir => { d with outDir := some value }
  | .root => { d with root := some value }
  | .publicTypes => { d with publicTypes := some value }

/-- The invocation, if it is complete. -/
def Draft.finish (d : Draft) : Except UsageError Invocation :=
  match d.doclets with
  | none => .error .docletsMissing
  | some doclets =>
    .ok {
      doclets
      config := d.config
      outDir := d.outDir
      root := d.root
      publicTypes := d.publicTypes
      denyWarnings := d.denyWarnings }

/-- Take in arguments from left to right. -/
def ofArguments (d : Draft) : List Argument → Except UsageError (Option Invocation)
  | [] => d.finish.map some
  | .help :: _ => .ok none
  | .denyWarnings :: rest => ofArguments { d with denyWarnings := true } rest
  | .setting s value :: rest => ofArguments (d.put value s) rest
  | .valueMissing s :: _ => .error (.valueMissing s)
  | .unknown word :: _ => .error (.unknownFlag word)
  | .doclets path :: rest =>
    if d.doclets.isSome then .error (.unexpected path)
    else ofArguments { d with doclets := some path } rest

/-- The invocation that a command line stands for, or none if it asks for help. -/
def parse (words : List String) : Except UsageError (Option Invocation) :=
  ofArguments {} (Argument.ofWords words)

end Invocation

end Ambient
