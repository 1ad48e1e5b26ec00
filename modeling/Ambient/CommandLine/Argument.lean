/-!
# Command-line arguments

## Main definitions

* `Setting`: an option that takes a value, with its spellings.
* `Argument`: what one or two words of a command line stand for.
* `Argument.ofWords`: take a command line apart.
* `Argument.words`: the words of an argument, in the long spelling.
-/

namespace Ambient

/-- An option that takes a value. -/
inductive Setting
  | config
  | outDir
  | root
  | publicTypes
  deriving DecidableEq, Repr

namespace Setting

/-- The long spelling. -/
def longFlag : Setting → String
  | .config => "--config"
  | .outDir => "--out-dir"
  | .root => "--root"
  | .publicTypes => "--public-types"

/-- All spellings, the long one first. -/
def flags : Setting → List String
  | .config => ["--config", "-c"]
  | .outDir => ["--out-dir", "-o"]
  | .root => ["--root", "-r"]
  | .publicTypes => ["--public-types"]

/-- What kind of value is asked for. -/
def valueKind : Setting → String
  | .config => "a file"
  | .outDir => "a directory"
  | .root => "a name"
  | .publicTypes => "a file"

/-- All options that take a value. -/
def all : List Setting := [.config, .outDir, .root, .publicTypes]

/-- The option with a spelling. -/
def ofFlag? (word : String) : Option Setting :=
  all.find? fun s => s.flags.contains word

end Setting

/-- What one or two words of a command line stand for. -/
inductive Argument
  | help
  | denyWarnings
  /-- An option with its value. -/
  | setting (s : Setting) (value : String)
  /-- An option at the end of the command line. -/
  | valueMissing (s : Setting)
  /-- The file with the records; a dash stands for the standard input. -/
  | doclets (path : String)
  /-- A word that starts like an option and is none. -/
  | unknown (word : String)
  deriving DecidableEq, Repr

namespace Argument

/-- What a word stands for that takes no value. -/
def ofWord (word : String) : Argument :=
  if word ∈ ["--help", "-h"] then .help
  else if word = "--deny-warnings" then .denyWarnings
  else if word = "-" ∨ word.toList.head? ≠ some '-' then .doclets word
  else .unknown word

/-- Take a command line apart. The word after an option is its value, whatever it looks like. -/
def ofWords : List String → List Argument
  | [] => []
  | word :: rest =>
    match Setting.ofFlag? word with
    | none => ofWord word :: ofWords rest
    | some s =>
      match rest with
      | [] => [.valueMissing s]
      | value :: rest => .setting s value :: ofWords rest

/-- The words of an argument, in the long spelling. -/
def words : Argument → List String
  | .help => ["--help"]
  | .denyWarnings => ["--deny-warnings"]
  | .setting s value => [s.longFlag, value]
  | .valueMissing s => [s.longFlag]
  | .doclets path => [path]
  | .unknown word => [word]

end Argument

end Ambient
