import Ambient.Config.Basic
import Ambient.Json.Reader
import Ambient.Toml.Reader
/-!
# Configurations as JSON

## Main definitions

* `Config.toJson`: write every option; options that are not set are `null`.
* `Config.ofJson?`: read a configuration from a value. Missing options have their default, unknown
  ones are ignored.
* `Config.ofJsonText`: read a configuration from JSON text. The options may stand under the key
  `typescript` of the top-level object.
* `Config.ofTomlText`: read a configuration from TOML text.
-/

namespace Ambient

/-- A map as a JSON object with its keys in order. -/
def OrderedMap.toJson {α : Type} (f : α → Json) (m : OrderedMap α) : Json :=
  .obj (m.entries.map fun (key, value) => (key, f value))

/-- Decode the values of an object one by one. -/
def OrderedMap.decodeEntries {α : Type} (decode : Json → Option α) :
    List (String × Json) → Option (List (String × α))
  | [] => some []
  | (key, value) :: rest => do
    let a ← decode value
    let as ← decodeEntries decode rest
    pure ((key, a) :: as)

/-- Read a map from a JSON object. -/
def OrderedMap.ofJson? {α : Type} (decode : Json → Option α) : Json → Option (OrderedMap α)
  | .obj members => (decodeEntries decode members).map OrderedMap.ofList
  | _ => none

namespace Additions

variable {α : Type}

def toJson (f : α → Json) (u : Additions α) : Json :=
  .obj [("global", u.global.toJson f), ("module", u.byModule.toJson (OrderedMap.toJson f))]

def fieldNames : List String := ["global", "module"]

def ofJson? (surplus : Bool) (decode : Json → Option α) (v : Json) :
    Option (Additions α) := do
  let get ← v.record? fieldNames surplus
  let inner := OrderedMap.ofJson? decode
  pure {
    global := ← Json.withDefault? inner .empty (get "global")
    byModule := ← Json.withDefault? (OrderedMap.ofJson? inner) .empty (get "module") }

end Additions

namespace MemberReplacement

def toJson (r : MemberReplacement) : Json :=
  .obj [("description", Json.ofOption .str r.description), ("declaration", .str r.declaration)]

def fieldNames : List String := ["description", "declaration"]

def ofJson? (surplus : Bool) (v : Json) : Option MemberReplacement := do
  let get ← v.record? fieldNames surplus
  pure {
    description := ← Json.optional? Json.str? (get "description")
    declaration := ← (get "declaration").bind Json.str? }

end MemberReplacement

namespace Config

def toJson (c : Config) : Json :=
  .obj [
    ("rootModuleName", .str c.rootModuleName),
    ("outDir", .str c.outDir),
    ("typeReplacements", c.typeReplacements.toJson .str),
    ("defaultCtorDesc", .str c.defaultCtorDesc),
    ("fillUndocumentedDoclets", .bool c.fillUndocumentedDoclets),
    ("outputDocletDefs", .bool c.outputDocletDefs),
    ("publicAnnotation", Json.ofOption .str c.publicAnnotation),
    ("defaultReturnType", .str c.defaultReturnType),
    ("aliases", c.aliases.toJson .str),
    ("interfaces", c.interfaces.toJson Json.ofStrings),
    ("ignore", .ofStrings c.ignore),
    ("makePublic", .ofStrings c.makePublic),
    ("headerFile", Json.ofOption .str c.headerFile),
    ("footerFile", Json.ofOption .str c.footerFile),
    ("memberReplacements", c.memberReplacements.toJson MemberReplacement.toJson),
    ("doNotDeclareTopLevelElements", .bool c.doNotDeclareTopLevelElements)]

def fieldNames : List String :=
  ["rootModuleName", "outDir", "typeReplacements", "defaultCtorDesc", "fillUndocumentedDoclets",
    "outputDocletDefs", "publicAnnotation", "defaultReturnType", "aliases", "interfaces", "ignore",
    "makePublic", "headerFile", "footerFile", "memberReplacements", "doNotDeclareTopLevelElements"]

/-- Read a configuration. Records written as arrays may have surplus items only if `surplus`. -/
def ofJson? (surplus : Bool) (v : Json) : Option Config := do
  let get ← v.record? fieldNames surplus
  let default : Config := {}
  let strings := Json.listOf? Json.str?
  pure {
    rootModuleName := ← Json.withDefault? Json.str? default.rootModuleName (get "rootModuleName")
    outDir := ← Json.withDefault? Json.str? default.outDir (get "outDir")
    typeReplacements :=
      ← Json.withDefault? (OrderedMap.ofJson? Json.str?) .empty (get "typeReplacements")
    defaultCtorDesc :=
      ← Json.withDefault? Json.str? default.defaultCtorDesc (get "defaultCtorDesc")
    fillUndocumentedDoclets :=
      ← Json.withDefault? Json.bool? false (get "fillUndocumentedDoclets")
    outputDocletDefs := ← Json.withDefault? Json.bool? false (get "outputDocletDefs")
    publicAnnotation := ← Json.optional? Json.str? (get "publicAnnotation")
    defaultReturnType :=
      ← Json.withDefault? Json.str? default.defaultReturnType (get "defaultReturnType")
    aliases := ← Json.withDefault? (Additions.ofJson? surplus Json.str?) {} (get "aliases")
    interfaces := ← Json.withDefault? (Additions.ofJson? surplus strings) {}
      (get "interfaces")
    ignore := ← Json.withDefault? strings [] (get "ignore")
    makePublic := ← Json.withDefault? strings [] (get "makePublic")
    headerFile := ← Json.optional? Json.str? (get "headerFile")
    footerFile := ← Json.optional? Json.str? (get "footerFile")
    memberReplacements := ← Json.withDefault?
      (OrderedMap.ofJson? (MemberReplacement.ofJson? surplus)) .empty (get "memberReplacements")
    doNotDeclareTopLevelElements :=
      ← Json.withDefault? Json.bool? false (get "doNotDeclareTopLevelElements") }

/-- The options within a value: those under `typescript` if there is such a key. -/
def optionsWithin (v : Json) : Json :=
  (v.member? "typescript").getD v

/-- Why a text holds no configuration. -/
inductive JsonTextError
  | fault (fault : Json.Fault)
  | mismatch
  deriving DecidableEq, Repr

/-- Read a configuration from JSON text. -/
def ofJsonText (text : String) : Except JsonTextError Config :=
  match Json.parse text with
  | .error fault => .error (.fault fault)
  | .ok value =>
    match ofJson? false (optionsWithin value) with
    | some c => .ok c
    | none => .error .mismatch

/-- Read a configuration from TOML text. -/
def ofTomlText (text : String) : Option Config :=
  (Toml.parse text).bind (ofJson? true)

end Config

end Ambient
