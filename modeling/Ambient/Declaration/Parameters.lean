import Ambient.Declaration.Mentions
import Ambient.Rendering
/-!
# Parameter lists

## Main definitions

* `Slot`: one entry of a printed parameter list.
* `slots`: the entries for some parameters.
* `paramsLine`, `returnLine`: the parameter list and the return type of a signature.
* `placeholderList`: the placeholders of a declaration.
-/

namespace Ambient

/-- The warning that something has no type. -/
def untypedWarning (subject message : String) : Finding :=
  .about .warning .missingType subject message

/-- The type of something with some alternatives; without any, `any` with a warning. -/
def typeOrAny (subject : String) (names : List String) (warning : String) : Line :=
  match Config.printedNames names with
  | [] => [.untyped (untypedWarning subject warning)]
  | raws => [.types subject raws]

/-! ## Parameters -/

/-- One entry of a printed parameter list. -/
structure Slot where
  name : String
  /-- The alternatives of the type. -/
  names : List String
  /-- Takes all further arguments. -/
  isRest : Bool
  /-- Printed with a question mark. -/
  isOptional : Bool
  deriving DecidableEq, Repr

namespace Slot

/-- The warning that a parameter has no type. -/
def warning (s : Slot) : String :=
  "parameter " ++ "\x60" ++ s.name ++ "\x60" ++ " has no type, emitting any"

/-- The element type of a rest parameter. -/
def elementLine (subject : String) (s : Slot) : Line :=
  match Config.printedNames s.names with
  | [] => [.untyped (untypedWarning subject s.warning)]
  | raws => [.element subject raws]

/-- The text of an entry, in the declaration of a subject. -/
def line (subject : String) (s : Slot) : Line :=
  if s.isRest then
    .text ("..." ++ s.name ++ ": ") :: s.elementLine subject ++ [.text "[]"]
  else
    .text (s.name ++ (if s.isOptional then "?" else "") ++ ": ") ::
      typeOrAny subject s.names s.warning

end Slot

/-- The name of a parameter: its own name if that is an identifier, else one by position. -/
def paramName (index : Nat) (p : Param) : String :=
  match p.name with
  | some name => if Text.isIdentifier name.toList then name else "arg" ++ toString index
  | none => "arg" ++ toString index

/-- The entries for some parameters from a position on, given whether an earlier one was optional.
From the first optional parameter on, every parameter but a rest parameter is optional. -/
def slotsFrom (index : Nat) (afterOptional : Bool) : List Param → List Slot
  | [] => []
  | p :: rest =>
    let name := paramName index p
    if p.isRest then
      { name, names := p.alternatives, isRest := true, isOptional := false } ::
        slotsFrom (index + 1) afterOptional rest
    else
      let isOptional := afterOptional || p.isOptional || p.allowsUndefined
      { name, names := p.alternatives, isRest := false, isOptional } ::
        slotsFrom (index + 1) isOptional rest

/-- The entries of the parameter list of a signature. -/
def slots (params : List Param) : List Slot :=
  slotsFrom 0 false (plainParams params)

/-- The parameter list of a signature, in the declaration of a subject. -/
def paramsLine (subject : String) (params : List Param) : Line :=
  Line.joinWith ", " ((slots params).map (Slot.line subject))

/-! ## Return types and placeholders -/

/-- The return type of a signature: the alternatives of all return values together, the default if
there are none. -/
def returnLine (c : Config) (subject : String) (returns : List Param) : Line :=
  match Config.printedNames (returns.flatMap Param.alternatives) with
  | [] => [.text c.defaultReturnType]
  | raws => [.types subject raws]

/-- Placeholders in angle brackets, nothing if there are none. -/
def placeholderList (generics : List String) : String :=
  if generics.isEmpty then "" else "<" ++ Text.joinWith ", " generics ++ ">"

end Ambient
