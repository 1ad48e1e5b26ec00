import Ambient.Config.Codec
import Ambient.Proofs.JsonText
import Ambient.Proofs.OrderedMap
import Ambient.Proofs.RoundTrip
/-!
# Configurations that are written and read again

A configuration comes back as it was from what is written of it, with the entries of its maps in the
same order. The options may stand under a key of their own, next to anything else, and any of them
may be left out; an option that is left out has its default.

## Main definitions

* `Json.keeping`: an object without some of its members.
* `Config.keeping`: a configuration with the defaults in place of some of its options.

## Main statements

* `OrderedMap.ofJson?_toJson`, `Additions.ofJson?_toJson`, `MemberReplacement.ofJson?_toJson`: what
  is written for the parts of a configuration is read as it was.
* `Config.ofJson?_keeping`: what is written for some options is read as those options.
* `Config.shallow_keeping`: it is a value that text can hold.
* `Config.ofJsonText_keeping`: a text with some options of a configuration is read as them, in the
  options' own object and under the key for them.
-/

namespace Ambient

/-! ## Parts of a configuration -/

namespace Json

/-- An object without the members whose keys are not kept. -/
def keeping (kept : String → Bool) : Json → Json
  | .obj members => .obj (members.filter fun member => kept member.1)
  | v => v

variable {α : Type}

/-- A field with a default is read as it was written, if it was written. -/
theorem withDefault?_kept (decode : Json → Option α) (encode : α → Json)
    (back : ∀ a, decode (encode a) = some a) (kept : Bool) (a default : α) :
    withDefault? decode default (if kept then some (encode a) else none) =
      some (if kept then a else default) := by
  cases kept with
  | true => exact back a
  | false => rfl

/-- A field that may be `null` is read as it was written, if it was written. -/
theorem optional?_kept (decode : Json → Option α) (encode : α → Json)
    (noNull : ∀ a, encode a ≠ .null) (back : ∀ a, decode (encode a) = some a) (kept : Bool)
    (a? : Option α) :
    optional? decode (if kept then some (ofOption encode a?) else none) =
      some (if kept then a? else none) := by
  cases kept with
  | false => rfl
  | true =>
    cases a? with
    | none => rfl
    | some a => exact optional?_written decode encode noNull back (some a)

theorem strings_written (texts : List String) :
    listOf? str? (ofStrings texts) = some texts :=
  decodeAll_map str? .str fun _ _ => rfl

theorem shallow_ofOption_str (n : Nat) (s? : Option String) : Shallow n (ofOption .str s?) := by
  cases s? with
  | none => exact .null n
  | some s => exact .str n s

theorem shallow_ofStrings (n : Nat) (texts : List String) : Shallow (n + 1) (ofStrings texts) := by
  refine .arr fun item mem => ?_
  obtain ⟨s, -, rfl⟩ := List.mem_map.1 mem
  exact .str n s

/-- An object without some of its members is no deeper. -/
theorem Shallow.keeping {v : Json} {n : Nat} (h : Shallow n v) (kept : String → Bool) :
    Shallow n (v.keeping kept) := by
  cases h with
  | obj distinct inside =>
    refine .obj (distinct.sublist (List.filter_sublist.map _)) fun member mem => ?_
    exact inside member (List.mem_filter.1 mem).1
  | null n => exact .null n
  | bool n b => exact .bool n b
  | str n s => exact .str n s
  | arr inside => exact .arr inside

end Json

namespace OrderedMap

variable {α : Type} {decode : Json → Option α} {encode : α → Json}

theorem decodeEntries_map (back : ∀ a, decode (encode a) = some a) (entries : List (String × α)) :
    decodeEntries decode (entries.map fun (key, value) => (key, encode value)) = some entries := by
  induction entries with
  | nil => rfl
  | cons entry rest ih =>
    rw [List.map_cons, decodeEntries, back, ih]
    rfl

/-- A map is read as it was written, with its entries in the same order. -/
theorem ofJson?_toJson (back : ∀ a, decode (encode a) = some a) (m : OrderedMap α) :
    ofJson? decode (m.toJson encode) = some m := by
  rw [toJson, ofJson?, decodeEntries_map back, Option.map_some, ofList_entries]

theorem shallow_toJson {n : Nat} (inside : ∀ a, Json.Shallow n (encode a)) (m : OrderedMap α) :
    Json.Shallow (n + 1) (m.toJson encode) := by
  refine .obj ?_ fun member mem => ?_
  · rw [List.map_map]
    exact m.nodup_keys
  · obtain ⟨entry, -, rfl⟩ := List.mem_map.1 mem
    exact inside entry.2

end OrderedMap

namespace Additions

variable {α : Type} {decode : Json → Option α} {encode : α → Json}

/-- Added declarations are read as they were written. -/
theorem ofJson?_toJson (back : ∀ a, decode (encode a) = some a) (surplus : Bool)
    (u : Additions α) : ofJson? surplus decode (u.toJson encode) = some u := by
  have global : Json.withDefault? (OrderedMap.ofJson? decode) .empty
      (some (u.global.toJson encode)) = some u.global := OrderedMap.ofJson?_toJson back u.global
  have byModule : Json.withDefault? (OrderedMap.ofJson? (OrderedMap.ofJson? decode)) .empty
      (some (u.byModule.toJson (OrderedMap.toJson encode))) = some u.byModule :=
    OrderedMap.ofJson?_toJson (OrderedMap.ofJson?_toJson back) u.byModule
  simp only [ofJson?, toJson, Json.record?, Lists.lookup_cons, String.reduceEq, reduceIte, global,
    byModule, Json.some_bind]
  rfl

theorem shallow_toJson {n : Nat} (inside : ∀ a, Json.Shallow n (encode a)) (u : Additions α) :
    Json.Shallow (n + 3) (u.toJson encode) := by
  have global := OrderedMap.shallow_toJson inside u.global
  have byModule := OrderedMap.shallow_toJson (OrderedMap.shallow_toJson inside) u.byModule
  refine .obj (by simp) (List.forall_mem_cons.2 ⟨?_, List.forall_mem_singleton.2 byModule⟩)
  exact global.mono (Nat.le_add_right _ 1)

end Additions

namespace MemberReplacement

/-- A replacement is read as it was written. -/
theorem ofJson?_toJson (surplus : Bool) (r : MemberReplacement) :
    ofJson? surplus r.toJson = some r := by
  have description : Json.optional? Json.str? (some (Json.ofOption .str r.description)) =
      some r.description :=
    Json.optional?_kept Json.str? .str (fun _ => nofun) (fun _ => rfl) true r.description
  simp only [ofJson?, toJson, Json.record?, Lists.lookup_cons, String.reduceEq, reduceIte,
    description, Json.some_bind]
  rfl

theorem shallow_toJson (n : Nat) (r : MemberReplacement) : Json.Shallow (n + 1) r.toJson := by
  refine .obj (by simp) (List.forall_mem_cons.2 ⟨?_, List.forall_mem_singleton.2 ?_⟩)
  · exact Json.shallow_ofOption_str n r.description
  · exact .str n r.declaration

end MemberReplacement

/-! ## Some options of a configuration -/

namespace Config

/-- A configuration with the defaults in place of the options that are not kept. -/
def keeping (kept : String → Bool) (c : Config) : Config :=
  let default : Config := {}
  { rootModuleName := if kept "rootModuleName" then c.rootModuleName else default.rootModuleName
    outDir := if kept "outDir" then c.outDir else default.outDir
    typeReplacements :=
      if kept "typeReplacements" then c.typeReplacements else default.typeReplacements
    defaultCtorDesc :=
      if kept "defaultCtorDesc" then c.defaultCtorDesc else default.defaultCtorDesc
    fillUndocumentedDoclets :=
      if kept "fillUndocumentedDoclets" then c.fillUndocumentedDoclets
      else default.fillUndocumentedDoclets
    outputDocletDefs :=
      if kept "outputDocletDefs" then c.outputDocletDefs else default.outputDocletDefs
    publicAnnotation :=
      if kept "publicAnnotation" then c.publicAnnotation else default.publicAnnotation
    defaultReturnType :=
      if kept "defaultReturnType" then c.defaultReturnType else default.defaultReturnType
    aliases := if kept "aliases" then c.aliases else default.aliases
    interfaces := if kept "interfaces" then c.interfaces else default.interfaces
    ignore := if kept "ignore" then c.ignore else default.ignore
    makePublic := if kept "makePublic" then c.makePublic else default.makePublic
    headerFile := if kept "headerFile" then c.headerFile else default.headerFile
    footerFile := if kept "footerFile" then c.footerFile else default.footerFile
    memberReplacements :=
      if kept "memberReplacements" then c.memberReplacements else default.memberReplacements
    doNotDeclareTopLevelElements :=
      if kept "doNotDeclareTopLevelElements" then c.doNotDeclareTopLevelElements
      else default.doNotDeclareTopLevelElements }

variable {kept : String → Bool}

/-- **What is written for some options is read as those options.** -/
theorem ofJson?_keeping (surplus : Bool) (kept : String → Bool) (c : Config) :
    ofJson? surplus (c.toJson.keeping kept) = some (c.keeping kept) := by
  have str : ∀ s, Json.str? (.str s) = some s := fun _ => rfl
  have text := Json.withDefault?_kept Json.str? .str str
  have truth := Json.withDefault?_kept Json.bool? .bool fun _ => rfl
  have setting := Json.optional?_kept Json.str? .str (fun _ => nofun) str
  have strings := Json.withDefault?_kept (Json.listOf? Json.str?) Json.ofStrings
    Json.strings_written
  have replacements := Json.withDefault?_kept (OrderedMap.ofJson? Json.str?)
    (OrderedMap.toJson .str) (OrderedMap.ofJson?_toJson str)
  have aliases := Json.withDefault?_kept (Additions.ofJson? surplus Json.str?)
    (Additions.toJson .str) (Additions.ofJson?_toJson str surplus)
  have interfaces := Json.withDefault?_kept
    (Additions.ofJson? surplus (Json.listOf? Json.str?)) (Additions.toJson Json.ofStrings)
    (Additions.ofJson?_toJson Json.strings_written surplus)
  have members := Json.withDefault?_kept
    (OrderedMap.ofJson? (MemberReplacement.ofJson? surplus))
    (OrderedMap.toJson MemberReplacement.toJson)
    (OrderedMap.ofJson?_toJson (MemberReplacement.ofJson?_toJson surplus))
  -- Each key is looked up in what is written for each option.
  simp only [ofJson?, toJson, Json.keeping, Json.record?, Lists.lookup_filter_keys,
    Lists.lookup_cons, String.reduceEq, reduceIte, text, truth, setting, strings, replacements,
    aliases, interfaces, members, Json.some_bind]
  rfl

/-- What is written for a configuration is a value that text can hold. -/
theorem shallow_toJson (c : Config) : Json.Shallow 5 c.toJson := by
  have text : ∀ s, Json.Shallow 4 (.str s) := fun s => .str 4 s
  have truth : ∀ b, Json.Shallow 4 (.bool b) := fun b => .bool 4 b
  have setting := Json.shallow_ofOption_str 4
  have strings := Json.shallow_ofStrings 3
  have replacements := OrderedMap.shallow_toJson (fun s => .str 3 s) c.typeReplacements
  have aliases := Additions.shallow_toJson (fun s => .str 1 s) c.aliases
  have interfaces := Additions.shallow_toJson (Json.shallow_ofStrings 0) c.interfaces
  have members := OrderedMap.shallow_toJson (MemberReplacement.shallow_toJson 2)
    c.memberReplacements
  have distinct : fieldNames.Nodup := by decide
  refine .obj distinct ?_
  simp only [List.forall_mem_cons]
  exact ⟨text _, text _, replacements, text _, truth _, truth _, setting _, text _, aliases,
    interfaces, strings _, strings _, setting _, setting _, members, truth _, nofun⟩

/-- No option has the name of the key under which options may stand. -/
theorem member?_typescript_keeping (kept : String → Bool) (c : Config) :
    (c.toJson.keeping kept).member? "typescript" = none := by
  simp only [toJson, Json.keeping, Json.member?, Lists.lookup_filter_keys, Lists.lookup_cons,
    String.reduceEq, reduceIte, List.lookup_nil, ite_self]

/-- Options that are all kept are the configuration. -/
theorem keeping_of_forall (all : ∀ name ∈ fieldNames, kept name = true) (c : Config) :
    c.toJson.keeping kept = c.toJson ∧ c.keeping kept = c := by
  constructor
  · have names : ∀ member ∈ c.toJson.obj?.getD [], member.1 ∈ fieldNames := by
      intro member mem
      exact List.mem_map_of_mem (f := Prod.fst) mem
    exact congrArg Json.obj (List.filter_eq_self.2 fun member mem => all _ (names member mem))
  · simp only [fieldNames, List.forall_mem_cons] at all
    simp [keeping, all]

/-- **A text with some options of a configuration is read as them.** Whatever the configuration is
and whichever options are left out, the text that is printed for the others, on one line or on many,
is read as the configuration with the defaults in place of those that are left out. So is any text
that reads as the object of these options, and any text that reads as an object with it under
`typescript`, whatever else is in the object. If no option is left out, this is the configuration as
it was. -/
theorem ofJsonText_keeping (c : Config) (kept : String → Bool) :
    let options := c.toJson.keeping kept
    ofJsonText options.compact = .ok (c.keeping kept) ∧
    ofJsonText options.pretty = .ok (c.keeping kept) ∧
    (∀ text value, Json.parse text = .ok value →
      value = options ∨ value.member? "typescript" = some options →
      ofJsonText text = .ok (c.keeping kept)) ∧
    ((∀ name ∈ fieldNames, kept name = true) → options = c.toJson ∧ c.keeping kept = c) := by
  intro options
  have read : ∀ text value, Json.parse text = .ok value →
      value = options ∨ value.member? "typescript" = some options →
      ofJsonText text = .ok (c.keeping kept) := by
    intro text value parsed holds
    have within : optionsWithin value = options := by
      unfold optionsWithin
      rcases holds with rfl | found
      · rw [member?_typescript_keeping, Option.getD_none]
      · rw [found, Option.getD_some]
    unfold ofJsonText
    simp only [parsed, within, options, ofJson?_keeping]
  have shallow : Json.Shallow 5 options := c.shallow_toJson.keeping kept
  refine ⟨?_, ?_, read, fun all => keeping_of_forall all c⟩
  · exact read _ options (Json.parse_compact shallow (by decide)) (Or.inl rfl)
  · exact read _ options (Json.parse_pretty shallow (by decide)) (Or.inl rfl)

/-- One option of a configuration that has others, under `typescript` and next to another member. -/
theorem ofJsonText_keeping_wrapped :
    let c : Config := { rootModuleName := "api", ignore := ["A#b"] }
    let value : Json :=
      .obj [("name", .str "x"), ("typescript", .obj [("ignore", .arr [.str "A#b"])])]
    let text := "\x7b\"name\":\"x\",\"typescript\":\x7b\"ignore\":[\"A#b\"]\x7d\x7d"
    Json.parse text = .ok value ∧
      value.member? "typescript" = some (c.toJson.keeping (· == "ignore")) ∧
      ofJsonText text = .ok { ignore := ["A#b"] } := by
  intro c value text
  have within : value.member? "typescript" = some (c.toJson.keeping (· == "ignore")) := rfl
  have shallow : Json.Shallow 6 value := by
    have options : Json.Shallow 5 (.obj [("ignore", .arr [.str "A#b"])]) :=
      c.shallow_toJson.keeping (· == "ignore")
    refine .obj (by decide) (List.forall_mem_cons.2 ⟨.str 5 "x", ?_⟩)
    exact List.forall_mem_singleton.2 options
  have printed : value.compact = text := by decide
  have parsed : Json.parse text = .ok value :=
    printed ▸ Json.parse_compact shallow (by decide)
  exact ⟨parsed, within,
    (ofJsonText_keeping c (· == "ignore")).2.2.1 text value parsed (Or.inr within)⟩

end Config

end Ambient
