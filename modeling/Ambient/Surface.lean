import Ambient.Catalogue
/-!
# Closing the public surface

A public declaration must not mention a class or typedef that is not public. Starting from what is
public by itself or by configuration, every class and typedef that is mentioned is made public, and
mentions names in turn, until no new name comes up.

## Main definitions

* `Surface.State`: the catalogue with the names that are still to be looked up.
* `Surface.forcePublic`: make public what the configuration asks for.
* `Surface.lookUp`: look up one name.
* `Surface.pass`: look up all names that are pending at one moment.
* `Surface.close`: the closed catalogue and a report.

## Design notes

A pass that publishes nothing leaves no name pending. So there are at most as many passes as types
that are not public yet, and one more; this is the number of passes that `close` allows.
-/

namespace Ambient.Surface

/-- A moment of the closure. -/
structure State where
  catalogue : Catalogue
  /-- Names that are still to be looked up. -/
  pending : References := .empty
  /-- Longnames that were made public, in order. -/
  hoisted : List String := []
  /-- Names that stand for nothing. -/
  unresolved : References := .empty
  findings : List Finding := []

namespace State

/-- Make a class or typedef public, and note it. -/
def hoist (s : State) (name : String) : State :=
  { s with catalogue := s.catalogue.publish name, hoisted := s.hoisted ++ [name] }

/-- Note a finding. -/
def report (s : State) (finding : Finding) : State :=
  { s with findings := s.findings ++ [finding] }

end State

/-! ## What the configuration makes public -/

/-- The warning that a configured longname stands for no class or typedef. -/
def unknownEntry (longname : String) : Finding :=
  .about .warning .unresolvedType longname "makePublic entry does not name a class or typedef"

/-- Make the class or typedef of a longname public. -/
def forceOne (s : State) (longname : String) : State :=
  match s.catalogue.resolve? longname with
  | some entry => if entry.isPublic then s else s.hoist longname
  | none => s.report (unknownEntry longname)

/-- Make public what the configuration asks for. -/
def forcePublic (c : Config) (s : State) : State :=
  c.makePublic.foldl forceOne s

/-! ## Looking up names -/

/-- The warning that a mentioned name stands for nothing. -/
def undefinedType (name : String) : Finding :=
  .about .warning .unresolvedType name "referenced but undefined type"

/-- Note a name that stands for nothing, with a warning at its first time. -/
def noteUnresolved (s : State) (name : String) : State :=
  if s.unresolved.contains name then s
  else { s.report (undefinedType name) with unresolved := s.unresolved.insert name }

/-- Look up a name. A class or typedef that is not public becomes so, and the names it mentions are
pending from then on. -/
def lookUp (c : Config) (s : State) (name : String) : State :=
  let s := { s with pending := s.pending.remove name }
  match s.catalogue.resolve? name with
  | some entry =>
    if entry.isPublic then s
    else { s.hoist name with pending := entry.publish.toDeclaration.collect c s.pending }
  | none => if s.catalogue.addedTypes.contains name then s else noteUnresolved s name

/-- Look up all names that are pending now, in order. -/
def pass (c : Config) (s : State) : State :=
  s.pending.names.foldl (lookUp c) s

/-- Run passes until no name is pending, and count them. -/
def runPasses (c : Config) : Nat → State → State × Nat
  | 0, s => (s, 0)
  | fuel + 1, s =>
    if s.pending.isEmpty then (s, 0)
    else
      let (final, passes) := runPasses c fuel (pass c s)
      (final, passes + 1)

/-- The number of classes and typedefs that are not public. -/
def hiddenCount (k : Catalogue) : Nat :=
  k.types.values.countP fun entry => !entry.isPublic

/-- The names that are mentioned by what the configuration adds and by what is public. -/
def firstPending (c : Config) (k : Catalogue) : References :=
  (k.addedDeclarations ++ k.declared.filter Declaration.isPublic).foldl
    (fun pending d => d.collect c pending) .empty

/-- The outcome of the closure. -/
structure Report where
  /-- The types of the public surface. -/
  publicTypes : List PublicType
  /-- Longnames that were made public, in order. -/
  hoisted : List String
  /-- Names that are mentioned and stand for nothing. -/
  unresolved : List String
  /-- The number of passes. -/
  passes : Nat
  findings : List Finding

/-- The state in which the passes start: what the configuration asks for is public, and the names
that the public surface mentions are pending. -/
def startOf (c : Config) (k : Catalogue) : State :=
  let forced := forcePublic c { catalogue := k }
  { forced with pending := firstPending c forced.catalogue }

/-- The state after the last pass, and the number of passes. -/
def run (c : Config) (k : Catalogue) : State × Nat :=
  let start := startOf c k
  runPasses c (hiddenCount start.catalogue + 1) start

/-- Close the public surface of a catalogue. -/
def close (c : Config) (k : Catalogue) : Catalogue × Report :=
  let (final, passes) := run c k
  (final.catalogue,
    { publicTypes := final.catalogue.publicTypes
      hoisted := final.hoisted
      unresolved := final.unresolved.names
      passes
      findings := final.findings })

end Ambient.Surface
