import Ambient.Config.Codec
import Ambient.FileAccess
/-!
# Failures

Why settings could not be read or results could not be written. What is wrong with the records
themselves never stops a run.

## Main definitions

* `Failure`: the reason.
* `Failure.message`: the text of a reason.
* `Failure.chain`: the text with the text of the cause behind it.
* `Failure.isOpen`: whether the text leaves out where a text to be read is wrong.
-/

namespace Ambient

/-- Why settings could not be read or results could not be written. -/
inductive Failure
  /-- A file that is asked for by the settings is not there. -/
  | fileNotFound (path : String)
  /-- An operation on a file failed. -/
  | file (fault : FileFault)
  /-- A text holds no settings in JSON. -/
  | json (error : Config.JsonTextError)
  /-- A text holds no settings in TOML. -/
  | toml
  /-- The settings are such that no run can work with them. -/
  | settings (problem : Config.Problem)
  deriving DecidableEq, Repr

namespace Failure

/-- The text of a reason. -/
def message : Failure → String
  | .fileNotFound path => "File not found: " ++ path
  | .file fault => "IO error: " ++ fault.message
  | .json _ => "Serialization error"
  | .toml => "TOML error"
  | .settings problem => "Configuration error: " ++ problem.message

/-- The text of a reason with the text of its cause behind it. -/
def chain (failure : Failure) : String :=
  match failure with
  | .file fault => failure.message ++ ": " ++ fault.message
  | failure => failure.message

/-- Whether the text of a reason leaves out where a text to be read is wrong. -/
def isOpen : Failure → Bool
  | .json _ => true
  | .toml => true
  | _ => false

end Failure

end Ambient
