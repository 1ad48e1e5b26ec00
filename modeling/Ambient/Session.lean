import Ambient.Outline
import Ambient.Surface
/-!
# Generating declarations

## Main definitions

* `Output`: the declarations of one run, with statistics and findings.
* `generate`: the output for some records.
* `Output.framed`: the declarations between a header and a footer.
* `Session`: records that come in one by one, with any number of runs over those that are there.
-/

namespace Ambient

/-- Counts of one run. -/
structure Stats where
  classes : Nat
  typedefs : Nat
  moduleMembers : Nat
  addedTypes : Nat
  publicTypes : Nat
  hoisted : Nat
  unresolved : Nat
  passes : Nat
  warnings : Nat
  deriving DecidableEq, Repr

/-- The outcome of one run. -/
structure Output where
  /-- The text of the declarations. -/
  declarations : String
  /-- The types of the public surface. -/
  publicTypes : List PublicType
  /-- Names that are mentioned and stand for nothing. -/
  unresolved : List String
  stats : Stats
  findings : List Finding
  deriving DecidableEq, Repr

/-- Run over records that were expanded before, with the findings made since the last run. -/
def generate (c : Config) (doclets : List Doclet) (earlier : List Finding) : Output :=
  let (built, duplicates) := Catalogue.build c doclets
  let (closed, report) := Surface.close c built
  let rendering := (Outline.ofDeclarations closed.emitted).render c 0
  let findings := earlier ++ duplicates ++ report.findings ++ rendering.findings c
  { declarations := (Page.run {} (rendering.steps c)).text
    publicTypes := report.publicTypes
    unresolved := report.unresolved
    stats := {
      classes := closed.classes.length
      typedefs := closed.typedefs.length
      moduleMembers := closed.moduleMembers.length
      addedTypes := closed.addedTypes.size
      publicTypes := report.publicTypes.length
      hoisted := report.hoisted.length
      unresolved := report.unresolved.length
      passes := report.passes
      warnings := Finding.countWarnings findings }
    findings }

namespace PublicType

/-- The listing of a type as a JSON object. -/
def toJson (t : PublicType) : Json :=
  .obj [("kind", .str t.kind.text), ("name", .str t.name)]

end PublicType

namespace Output

/-- A text that ends with a line end, unless it is empty. -/
def closeLine (text : String) : String :=
  if text.isEmpty || text.toList.getLast? = some '\n' then text else text ++ "\n"

/-- The declarations between a header and a footer. -/
def framed (o : Output) (header footer : String) : String :=
  closeLine header ++ o.declarations ++ closeLine footer

/-- The list of public types as JSON text. -/
def publicTypesText (o : Output) : String :=
  (Json.arr (o.publicTypes.map PublicType.toJson)).pretty

end Output

/-- Records that were taken in, with the findings made since the last run. -/
structure Session where
  config : Config
  doclets : List Doclet := []
  findings : List Finding := []

namespace Session

/-- Take in one record. Typedefs of function types are expanded. -/
def add (s : Session) (d : Doclet) : Session :=
  let (expanded, findings) := FunctionTypedef.expand d
  { s with doclets := s.doclets ++ [expanded], findings := s.findings ++ findings }

/-- Take in records from left to right. -/
def addAll (s : Session) (ds : List Doclet) : Session :=
  ds.foldl add s

/-- Run over all records that were taken in. The findings go to the output. -/
def generate (s : Session) : Session × Output :=
  ({ s with findings := [] }, Ambient.generate s.config s.doclets s.findings)

end Session

end Ambient
