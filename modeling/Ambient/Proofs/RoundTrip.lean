import Ambient.Doclet.Codec
import Ambient.Proofs.Lists
/-!
# Records that are written and read again

A record that was read from a value is what is read from the value that is written of it. Reading
takes `null` for a value that is not set, so a record with a `null` embedded in it would come back
without it; but no record that was read has one.

## Main definitions

* `Param.Settled`, `Tag.Settled`, `Doclet.Settled`: the record has no `null` embedded in it.

## Main statements

* `Json.optional?_written`, `Json.withDefault?_written`, `Json.embedded?_written_iff`: each way of
  reading a field undoes the way in which the field is written.
* `Param.ofJson?_toJson_iff`, `Tag.ofJson?_toJson_iff`, `Doclet.ofJson?_toJson`: settled records
  come back as they were.
* `Doclet.settled_of_ofJson?`: what was read is settled.
* `Doclet.ofJson?_toJson_of_ofJson?`: what was read comes back as it was.
-/

namespace Ambient

namespace Json

variable {α : Type} {decode : Json → Option α} {encode : α → Json} {key name : String}

/-! ## Steps of reading -/

theorem some_bind {β : Type} (a : α) (f : α → Option β) : (some a >>= f) = f a := rfl

theorem bind_eq_some_iff {β : Type} {a? : Option α} {f : α → Option β} {b : β} :
    (a? >>= f) = some b ↔ ∃ a, a? = some a ∧ f a = some b :=
  Option.bind_eq_some_iff

/-! ## Looking up members -/

theorem lookup_memberIf (a? : Option α) :
    (memberIf key encode a?).lookup name = if name = key then a?.map encode else none := by
  cases a? with
  | none => simp [memberIf]
  | some a => exact Lists.lookup_cons key (encode a) [] name

/-- The value that is written for a list; none is if the list is empty. -/
def ofList? (encode : α → Json) : List α → Option Json
  | [] => none
  | a :: rest => some (.arr ((a :: rest).map encode))

theorem lookup_memberUnlessEmpty (as : List α) :
    (memberUnlessEmpty key encode as).lookup name =
      if name = key then ofList? encode as else none := by
  cases as with
  | nil => simp [memberUnlessEmpty, ofList?]
  | cons a rest => exact Lists.lookup_cons key _ [] name

/-! ## Reading what was written -/

/-- A value that may be absent is read as it was written. -/
theorem optional?_written (decode : Json → Option α) (encode : α → Json)
    (noNull : ∀ a, encode a ≠ .null)
    (back : ∀ a, decode (encode a) = some a) (a? : Option α) :
    optional? decode (a?.map encode) = some a? := by
  cases a? with
  | none => rfl
  | some a =>
    have read : optional? decode (some (encode a)) = (decode (encode a)).map some := by
      cases written : encode a with
      | null => exact absurd written (noNull a)
      | _ => rfl
    rw [Option.map_some, read, back, Option.map_some]

theorem decodeAll_map (decode : Json → Option α) (encode : α → Json) {as : List α}
    (back : ∀ a ∈ as, decode (encode a) = some a) :
    decodeAll decode (as.map encode) = some as := by
  induction as with
  | nil => rfl
  | cons a rest ih =>
    rw [List.forall_mem_cons] at back
    rw [List.map_cons, decodeAll, back.1, ih back.2]
    rfl

/-- A list is read as it was written. -/
theorem withDefault?_written (decode : Json → Option α) (encode : α → Json) {as : List α}
    (back : ∀ a ∈ as, decode (encode a) = some a) :
    withDefault? (listOf? decode) [] (ofList? encode as) = some as := by
  cases as with
  | nil => rfl
  | cons a rest => exact decodeAll_map decode encode back

/-- An embedded value is read as it was written, unless it is `null`. -/
theorem embedded?_written_iff {value : Option Json} :
    embedded? value = some value ↔ value ≠ some .null := by
  unfold embedded?
  split <;> simp_all

/-! ## What reading gives -/

/-- Reading gives no embedded `null`. -/
theorem ne_null_of_embedded? {field value : Option Json} (found : embedded? field = some value) :
    value ≠ some .null := by
  rintro rfl
  unfold embedded? at found
  split at found <;> simp_all

theorem forall_mem_of_decodeAll {P : α → Prop} (each : ∀ v a, decode v = some a → P a)
    {items : List Json} {as : List α} (found : decodeAll decode items = some as) :
    ∀ a ∈ as, P a := by
  induction items generalizing as with
  | nil =>
    cases found
    exact fun a mem => absurd mem List.not_mem_nil
  | cons item rest ih =>
    simp only [decodeAll, Option.bind_eq_bind, Option.bind_eq_some_iff, Option.pure_def] at found
    obtain ⟨a, first, others, found, same⟩ := found
    cases same
    rw [List.forall_mem_cons]
    exact ⟨each item a first, ih found⟩

/-- What holds of everything that is read holds of the items of a list. -/
theorem forall_mem_of_withDefault? {P : α → Prop} (each : ∀ v a, decode v = some a → P a)
    {field : Option Json} {as : List α}
    (found : withDefault? (listOf? decode) [] field = some as) : ∀ a ∈ as, P a := by
  cases field with
  | none =>
    cases found
    exact fun a mem => absurd mem List.not_mem_nil
  | some value =>
    cases value with
    | arr items => exact forall_mem_of_decodeAll each found
    | _ => cases found

end Json

/-! ## Type annotations -/

theorem Annotation.ofJson?_toJson (t : Annotation) : ofJson? t.toJson = some t := by
  have names : Json.listOf? Json.str? (.ofStrings t.names) = some t.names :=
    Json.decodeAll_map Json.str? .str fun _ _ => rfl
  simp [ofJson?, toJson, Json.record?, Json.withDefault?, names]

/-! ## Parameters and tags -/

namespace Param

/-- No `null` is embedded. -/
def Settled (p : Param) : Prop := p.defaultValue ≠ some .null

/-- What was read is settled. -/
theorem settled_of_ofJson? {v : Json} {p : Param} (read : ofJson? v = some p) : p.Settled := by
  simp only [ofJson?, Json.bind_eq_some_iff, Option.pure_def] at read
  obtain ⟨_, _, _, _, _, _, _, _, _, _, _, _, _, _, _, embedded, same⟩ := read
  cases same
  exact Json.ne_null_of_embedded? embedded

/-- A parameter comes back as it was exactly if no `null` is embedded in it. -/
theorem ofJson?_toJson_iff {p : Param} : ofJson? p.toJson = some p ↔ p.Settled := by
  have annotation := Json.optional?_written Annotation.ofJson? Annotation.toJson (fun _ => nofun)
    Annotation.ofJson?_toJson p.type
  have text := Json.optional?_written Json.str? .str (fun _ => nofun) fun _ => rfl
  have truth := Json.optional?_written Json.bool? .bool (fun _ => nofun) fun _ => rfl
  rw [Settled, ← Json.embedded?_written_iff]
  -- Each key is looked up in what is written for each field.
  simp only [ofJson?, toJson, Json.record?, List.lookup_append, Json.lookup_memberIf, annotation,
    text, truth, Option.bind_eq_bind, Option.bind_some, Option.pure_def, String.reduceEq, reduceIte,
    Option.none_or, Option.or_none, Option.map_id_fun, id_eq]
  constructor
  · intro back
    obtain ⟨value, embedded, same⟩ := Option.bind_eq_some_iff.1 back
    rw [embedded, ← congrArg Param.defaultValue (Option.some.inj same)]
  · intro embedded
    rw [embedded]
    rfl

end Param

namespace Tag

/-- No `null` is embedded. -/
def Settled (t : Tag) : Prop := t.value ≠ some .null

/-- What was read is settled. -/
theorem settled_of_ofJson? {v : Json} {t : Tag} (read : ofJson? v = some t) : t.Settled := by
  simp only [ofJson?, Json.bind_eq_some_iff, Option.pure_def] at read
  obtain ⟨_, _, _, _, _, _, _, _, _, embedded, same⟩ := read
  cases same
  exact Json.ne_null_of_embedded? embedded

/-- A tag comes back as it was exactly if no `null` is embedded in it. -/
theorem ofJson?_toJson_iff {t : Tag} : ofJson? t.toJson = some t ↔ t.Settled := by
  rw [Settled, ← Json.embedded?_written_iff]
  have required (s : String) : Json.withDefault? Json.str? "" (some (.str s)) = some s := rfl
  simp only [ofJson?, toJson, Json.record?, List.cons_append, List.nil_append, Lists.lookup_cons,
    Json.lookup_memberIf, required, Json.str?, Option.bind_eq_bind, Option.bind_some,
    Option.pure_def, String.reduceEq, reduceIte, Option.map_id_fun, id_eq]
  constructor
  · intro back
    obtain ⟨value, embedded, same⟩ := Option.bind_eq_some_iff.1 back
    rw [embedded, ← congrArg Tag.value (Option.some.inj same)]
  · intro embedded
    rw [embedded]
    rfl

end Tag

/-! ## Doclets -/

namespace Doclet

/-- No `null` is embedded anywhere. -/
structure Settled (d : Doclet) : Prop where
  params : ∀ p ∈ d.params, p.Settled
  returns : ∀ p ∈ d.returns, p.Settled
  properties : ∀ p ∈ d.properties, p.Settled
  tags : ∀ t ∈ d.tags, t.Settled

/-- What was read is settled. -/
theorem settled_of_ofJson? {v : Json} {d : Doclet} (read : ofJson? v = some d) : d.Settled := by
  simp only [ofJson?, Json.bind_eq_some_iff, Option.pure_def] at read
  obtain ⟨_, _, _, _, _, _, _, _, _, _, _, _, _, _, _, _, _, _, _, _, _, params, _, returns, _,
    properties, _, tags, _, _, _, _, _, _, _, _, _, _, _, _, same⟩ := read
  cases same
  exact {
    params := Json.forall_mem_of_withDefault? (fun _ _ => Param.settled_of_ofJson?) params
    returns := Json.forall_mem_of_withDefault? (fun _ _ => Param.settled_of_ofJson?) returns
    properties := Json.forall_mem_of_withDefault? (fun _ _ => Param.settled_of_ofJson?) properties
    tags := Json.forall_mem_of_withDefault? (fun _ _ => Tag.settled_of_ofJson?) tags }

/-- A settled record comes back as it was. -/
theorem ofJson?_toJson {d : Doclet} (settled : d.Settled) : ofJson? d.toJson = some d := by
  have annotation := Json.optional?_written Annotation.ofJson? Annotation.toJson (fun _ => nofun)
    Annotation.ofJson?_toJson d.type
  have text := Json.optional?_written Json.str? .str (fun _ => nofun) fun _ => rfl
  have truth := Json.optional?_written Json.bool? .bool (fun _ => nofun) fun _ => rfl
  have scope := Json.optional?_written (fun v => v.word?.bind Scope.ofText?)
    (fun s : Scope => .str s.text) (fun _ => nofun) Scope.ofText?_text d.scope
  have access := Json.optional?_written (fun v => v.word?.bind Access.ofText?)
    (fun a : Access => .str a.text) (fun _ => nofun) Access.ofText?_text d.access
  have entries (ps : List Param) (settled : ∀ p ∈ ps, p.Settled) :=
    Json.withDefault?_written Param.ofJson? Param.toJson fun p mem =>
      Param.ofJson?_toJson_iff.2 (settled p mem)
  have tags := Json.withDefault?_written Tag.ofJson? Tag.toJson fun t mem =>
    Tag.ofJson?_toJson_iff.2 (settled.tags t mem)
  have augments := Json.withDefault?_written Json.str? .str fun s (_ : s ∈ d.augments) => rfl
  have kind : Json.withDefault? (fun v => v.word?.map Kind.ofText) .member
      (some (.str d.kind.text)) = some d.kind := congrArg some (Kind.ofText_text d.kind)
  have required (s : String) : Json.withDefault? Json.str? "" (some (.str s)) = some s := rfl
  have flag (b : Bool) : Json.withDefault? Json.bool? false (some (.bool b)) = some b := rfl
  -- Each key is looked up in what is written for each field.
  simp only [ofJson?, toJson, Json.record?, List.lookup_append, List.cons_append, List.nil_append,
    Lists.lookup_cons, Json.lookup_memberIf, Json.lookup_memberUnlessEmpty, annotation, text, truth,
    scope, access, entries d.params settled.params, entries d.returns settled.returns,
    entries d.properties settled.properties, tags, augments, kind, required, flag, List.lookup_nil,
    Json.some_bind, Option.pure_def, String.reduceEq, reduceIte, Option.none_or, Option.or_none]

/-- **What was read comes back as it was.** A record that was read from any value, with any fields
set, is what is read from the value that is written of it. -/
theorem ofJson?_toJson_of_ofJson? {v : Json} {d : Doclet} (read : ofJson? v = some d) :
    ofJson? d.toJson = some d :=
  ofJson?_toJson (settled_of_ofJson? read)

/-- A record read from a value with a kind of its own, words written as objects, an entry written
as an array, and `null` for values that are not set, one of them in place of an embedded value. -/
theorem ofJson?_toJson_of_ofJson?_mixed_spellings :
    let value : Json := .obj [("kind", .obj [("mixin", .null)]), ("memberof", .null),
      ("scope", .obj [("static", .null)]), ("returns", .arr []), ("colour", .int 7),
      ("params", .arr [
        .obj [("name", .str "a"), ("defaultvalue", .null), ("optional", .bool false)],
        .arr [.null, .str "b", .null, .null, .null, .null, .arr [.null]]]),
      ("tags", .arr [.obj [("title", .str "template"), ("value", .obj [("x", .null)])]])]
    let record : Doclet := {
      kind := .other, scope := some .staticMember,
      params := [{ name := some "a", optionalMark := some false },
        { name := some "b", defaultValue := some (.arr [.null]) }],
      tags := [{ title := "template", value := some (.obj [("x", .null)]) }] }
    ofJson? value = some record ∧ ofJson? record.toJson = some record := by
  intro value record
  have read : ofJson? value = some record := rfl
  exact ⟨read, ofJson?_toJson_of_ofJson? read⟩

end Doclet

end Ambient
