import Ambient.TypeExpr.Basic
import Ambient.Config.Basic
import Ambient.Finding
/-!
# Type text

A raw type expression becomes TypeScript type text. Along with the text go the events of the
expression: the names it mentions and the untyped arrays in it.

## Main definitions

* `TypeText`: type text and events.
* `Config.typeText`: the type of one expression.
* `Config.unionText`: the union of some expressions.
* `Config.printedNames`: the alternatives of an annotation without `null` and `undefined`, which are
  not printed.
* `TypeText.findings`: what the events amount to when the type is printed for a subject.
-/

namespace Ambient

/-- A printed type with what was met on the way. -/
structure TypeText where
  text : String
  events : List TypeExpr.Event
  deriving DecidableEq, Repr

namespace Config

/-- The tree of a raw type expression under the replacements of a configuration. -/
def readType (c : Config) (raw : String) : TypeExpr :=
  TypeExpr.read c.replacement? raw.toList

/-- The type text of one type expression. -/
def typeText (c : Config) (raw : String) : TypeText :=
  let type := c.readType raw
  { text := type.print c.defaultReturnType, events := type.events }

/-- Whether an alternative only says that a value may be missing. -/
def isNullish (raw : String) : Bool :=
  let bare := Text.trimmed raw
  bare == "null" || bare == "undefined"

/-- The alternatives of an annotation that are printed. -/
def printedNames (names : List String) : List String :=
  names.filter fun name => !isNullish name

/-- The union of some type expressions, with the events of all of them. -/
def unionText (c : Config) (raws : List String) : TypeText :=
  let types := raws.map c.typeText
  { text := Text.joinWith "|" (types.map TypeText.text)
    events := types.flatMap TypeText.events }

/-- The union of the alternatives of an annotation. There is no type if nothing is left of
them. -/
def unionText? (c : Config) (names : List String) : Option TypeText :=
  match printedNames names with
  | [] => none
  | raws => some (c.unionText raws)

end Config

namespace TypeText

/-- The warning about an untyped array in the type of a subject. -/
def untypedArrayWarning (subject word : String) : Finding :=
  .about .warning .untypedArray subject
    ("untyped " ++ "\x60" ++ word ++ "\x60" ++ " annotation, emitting any[]")

/-- The findings to report when a type is printed for a subject. -/
def findings (subject : String) (events : List TypeExpr.Event) : List Finding :=
  (TypeExpr.Event.untypedArrays events).map (untypedArrayWarning subject)

end TypeText

end Ambient
