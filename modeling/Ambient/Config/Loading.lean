import Ambient.Failure
/-!
# Configurations in files

## Main definitions

* `Config.load`: read and check a configuration file, in TOML if its name ends so, else in JSON.
* `Config.headerText`, `Config.footerText`: the texts around the declarations.
* `Config.declarationPath`: the path of the output file.
-/

namespace Ambient.Config

variable {m : Type → Type} [Monad m]

/-- The path of the output file. -/
def declarationPath (c : Config) : String :=
  FilePath.join c.outDir (c.rootModuleName ++ ".d.ts")

/-- Read a configuration from the text of a file with a given path. -/
def ofFileText (path text : String) : Except Failure Config :=
  if FilePath.ending? path = some "toml" then
    match ofTomlText text with
    | some c => .ok c
    | none => .error .toml
  else (ofJsonText text).mapError .json

/-- The text of a file that has to be there. -/
def readExisting (files : FileAccess m) (path : String) : m (Except Failure String) := do
  if ← files.pathExists path then
    pure ((← files.readText path).mapError .file)
  else pure (.error (.fileNotFound path))

/-- Read and check a configuration file. -/
def load (files : FileAccess m) (path : String) : m (Except Failure Config) := do
  let text ← readExisting files path
  pure (text.bind fun text =>
    (ofFileText path text).bind fun c => c.check.mapError .settings)

/-- The text of a file that may be left unset. -/
def readIfSet (files : FileAccess m) : Option String → m (Except Failure String)
  | some path => readExisting files path
  | none => pure (.ok "")

/-- The text before the declarations. -/
def headerText (files : FileAccess m) (c : Config) : m (Except Failure String) :=
  readIfSet files c.headerFile

/-- The text after the declarations. -/
def footerText (files : FileAccess m) (c : Config) : m (Except Failure String) :=
  readIfSet files c.footerFile

end Ambient.Config
