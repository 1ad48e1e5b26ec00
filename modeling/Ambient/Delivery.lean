import Ambient.Config.Loading
import Ambient.Session
/-!
# Writing results

## Main definitions

* `Output.write`: write the declarations, with header and footer, to the output file.
* `Output.writeListing`: write the list of public types to a file.

Nothing is written if the header or the footer cannot be read.
-/

namespace Ambient.Output

variable {m : Type → Type} [Monad m]

/-- Make a directory with its parents, and give a file a text. -/
def writeBelow (files : FileAccess m) (directory path text : String) :
    ExceptT Failure m Unit := do
  ExceptT.mk (return (← files.makeDirectories directory).mapError .file)
  ExceptT.mk (return (← files.writeText path text).mapError .file)

/-- Write the declarations to the output file. The result is its path. -/
def write (files : FileAccess m) (c : Config) (o : Output) : ExceptT Failure m String := do
  let header ← ExceptT.mk (c.headerText files)
  let footer ← ExceptT.mk (c.footerText files)
  writeBelow files c.outDir c.declarationPath (o.framed header footer)
  pure c.declarationPath

/-- Write the list of public types to a file. -/
def writeListing (files : FileAccess m) (path : String) (o : Output) :
    ExceptT Failure m Unit :=
  writeBelow files ((FilePath.parent? path).getD "") path o.publicTypesText

end Ambient.Output
