import Ambient.CommandLine.Run
/-!
# The program

The only module with effects of its own: it gives `runCommandLine` the real files, prints the report
and sets the exit code.
-/

namespace Ambient

/-- The reason behind an error of the machine. -/
def FileFault.ofError : IO.Error → FileFault
  | .noFileOrDirectory .. => .notFound
  | .alreadyExists .. => .alreadyExists
  | .inappropriateType .. => .notDirectory
  | error => .other (toString error)

/-- Run an action and keep the reason if it fails. -/
def attempt {α : Type} (action : IO α) : IO (Except FileFault α) := do
  try
    let a ← action
    pure (.ok a)
  catch error => pure (.error (.ofError error))

/-- Whether an action succeeds. -/
def succeeds {α : Type} (action : IO α) : IO Bool := do
  match ← attempt action with
  | .ok _ => pure true
  | .error _ => pure false

/-- Whether there is a directory on the disk. -/
def directoryOnDisk (path : String) : IO Bool :=
  succeeds (IO.FS.realPath (path ++ "/."))

/-- Replace the reason for a failure if the path leads to a directory. -/
def unlessDirectory {α : Type} (path : String) (action : IO α) : IO (Except FileFault α) := do
  match ← attempt action with
  | .ok a => pure (.ok a)
  | .error fault =>
    if ← directoryOnDisk path then pure (.error .isDirectory) else pure (.error fault)

/-- The files on the disk. -/
def disk : FileAccess IO where
  pathExists path := succeeds (IO.FS.realPath path)
  directoryExists path := directoryOnDisk path
  readText path := unlessDirectory path (IO.FS.readFile path)
  writeText path text := unlessDirectory path (IO.FS.writeFile path text)
  makeDirectory path := attempt (IO.FS.createDir path)

/-- The text of the standard input. -/
def readStandardInput : IO (Except FileFault String) :=
  attempt do (← IO.getStdin).readToEnd

end Ambient

/-- Run the program. -/
def main (words : List String) : IO UInt32 := do
  let report ← Ambient.runCommandLine Ambient.disk Ambient.readStandardInput words
  IO.print report.output
  IO.eprint report.errors
  pure (if report.succeeded then 0 else 1)
