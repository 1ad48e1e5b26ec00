import Ambient.Proofs.Building
import Ambient.Proofs.Lists
/-!
# What a catalogue stands for

A catalogue is filled by several passes over the records and the configuration. Of several types
with one longname the first one counts, a member counts once, and of several added types with one
name the last one counts. What the closure and the tree of modules rely on is said here of the whole
catalogue.

Classes and typedefs are kept in one table with distinct keys, of which each kind is a part, so no
longname stands for both. The proof does not rest on this: both would be of the first type with that
longname, which is of one kind.

## Main definitions

* `TypeEntry.ownMembers`, `TypeEntry.attached`: the members of an entry that its own record makes,
  and the ones that records of their own make.
* `Catalogue.recordMembers`: all members that records of their own make, wherever they are.
* `TypeEntry.StandsFor`, `Catalogue.Represents`: the entry, and the catalogue, of some records.

## Main statements

* `Catalogue.recordMembers_build`: every record of a member that counts makes one member.
* `Catalogue.build_represents`: a catalogue represents the records that it is built of.
-/

namespace Ambient

/-! ## The members of an entry -/

namespace TypeEntry

/-- The members that the record of an entry makes by itself: one for each property of a typedef that
is named and no field of another one. -/
def ownMembers (e : TypeEntry) : List Member :=
  if e.doclet.kind = .typedef then e.doclet.properties.filterMap (Member.ofProperty? e.doclet)
  else []

/-- The members that records of their own make: what comes after the own members of an entry. -/
def attached (e : TypeEntry) : List Member := e.members.drop e.ownMembers.length

variable (c : Config) (d : Doclet) (ms : List Doclet)

theorem attached_withMembersOf :
    ((ofDoclet d c).withMembersOf c ms).attached = ms.map fun m =>
      Member.ofDoclet (Catalogue.memberForm m) (ofDoclet d c).ownerOfMembers m c :=
  List.drop_left ..

theorem members_withMembersOf :
    ((ofDoclet d c).withMembersOf c ms).members =
      ((ofDoclet d c).withMembersOf c ms).ownMembers ++
        ((ofDoclet d c).withMembersOf c ms).attached := by
  rw [attached_withMembersOf]
  rfl

namespace RaisedTo

variable {e later : TypeEntry}

theorem ownMembers (h : e.RaisedTo later) : later.ownMembers = e.ownMembers := by
  unfold TypeEntry.ownMembers
  rw [h.doclet]

theorem attached (h : e.RaisedTo later) : later.attached = e.attached := by
  unfold TypeEntry.attached
  rw [h.members, h.ownMembers]

end RaisedTo

/-- The entry stands for the records of a longname: it is of the first type with that longname that
is not left out, it is of some kind, and the members that were attached to it name it as their
parent. -/
structure StandsFor (c : Config) (ds : List Doclet) (name : String) (kind : Doclet.Kind)
    (owner : Owner) (e : TypeEntry) : Prop where
  kind : e.doclet.kind = kind
  longname : e.doclet.longname = name
  first : (ds.find? fun d => d.kind.makesType && !c.leavesOut d.longname && d.longname = name) =
    some e.doclet
  isPublic : e.isPublic = e.doclet.isPublicByItself c.publicAnnotation
  members : e.members = e.ownMembers ++ e.attached
  attached : ∀ m ∈ e.attached, m.doclet.memberof.getD "" = name ∧ m.owner = owner

/-- What stands for one longname is of one kind: there is only one first type with that longname. -/
theorem StandsFor.kind_eq {c : Config} {ds : List Doclet} {name : String}
    {kind kind' : Doclet.Kind} {owner owner' : Owner} {e e' : TypeEntry}
    (h : e.StandsFor c ds name kind owner)
    (h' : e'.StandsFor c ds name kind' owner') : kind = kind' := by
  have same : e.doclet = e'.doclet := Option.some.inj (h.first.symm.trans h'.first)
  rw [← h.kind, ← h'.kind, same]

end TypeEntry

namespace Catalogue

/-- All members that records of their own make, of whatever type or module. -/
def recordMembers (k : Catalogue) : List Member :=
  k.types.values.flatMap TypeEntry.attached ++ k.moduleMembers

/-- The same records make the members of a later moment. -/
theorem OnlyPublishes.recordMembers {k later : Catalogue} (h : k.OnlyPublishes later) :
    later.recordMembers = k.recordMembers := by
  unfold Catalogue.recordMembers
  rw [OrderedMap.flatMap_values, OrderedMap.flatMap_values, h.keys, h.moduleMembers]
  congr 1
  refine List.flatMap_congr fun name mem => ?_
  obtain ⟨e, found⟩ := OrderedMap.mem_keys_iff.1 mem
  obtain ⟨e', found', raised⟩ := h.raised name e found
  unfold resolve? at found'
  rw [found, found', Option.elim_some, Option.elim_some, raised.attached]

/-- A catalogue as it has to be for some records. -/
structure Represents (c : Config) (ds : List Doclet) (k : Catalogue) : Prop where
  classes : ∀ name e, (name, e) ∈ k.classes → e.StandsFor c ds name .classType .classBody
  typedefs : ∀ name e, (name, e) ∈ k.typedefs → e.StandsFor c ds name .typedef .interfaceBody
  /-- No longname stands for a class and for a typedef. -/
  apart : ∀ name, name ∈ k.classes.map Prod.fst → name ∉ k.typedefs.map Prod.fst
  /-- The longnames are those of the types that are not left out. -/
  longnames : ∀ name, name ∈ k.classes.map Prod.fst ∨ name ∈ k.typedefs.map Prod.fst ↔
    ∃ d ∈ ds, d.kind.makesType = true ∧ c.leavesOut d.longname = false ∧ d.longname = name
  /-- A member of a module has no class or typedef as its parent. -/
  moduleMembers : ∀ m ∈ k.moduleMembers, m.owner = .moduleLevel ∧
    m.doclet.memberof.getD "" ∉ k.classes.map Prod.fst ∧
    m.doclet.memberof.getD "" ∉ k.typedefs.map Prod.fst
  /-- A member is made of a record, in the form that the kind of the record asks for. -/
  made : ∀ m ∈ k.recordMembers, m.doclet ∈ ds ∧ m.doclet.kind.makesMember = true ∧
    m = Member.ofDoclet (memberForm m.doclet) m.owner m.doclet c
  /-- No two members are of the same longname, wherever they are. -/
  distinct : (k.recordMembers.map fun m => m.doclet.longname).Nodup
  /-- No member is an inherited copy, an inner symbol, or left out by itself or with its parent. -/
  kept : ∀ m ∈ k.recordMembers, m.doclet.inherited = false ∧
    m.doclet.scope ≠ some .innerMember ∧ c.leavesOut m.doclet.longname = false ∧
    ∀ parent, m.doclet.memberof = some parent → c.leavesOut parent = false
  /-- An added type stands under its full name. -/
  addedTypes : ∀ name t, (name, t) ∈ k.addedTypes.entries → t.fullName = name
  /-- The names of added types are those of the configured aliases and interfaces. -/
  addedNames : ∀ name, name ∈ k.addedTypes.keys ↔
    (∃ path short target, (path, short, target) ∈ c.aliases.entries ∧ inModule path short = name) ∨
    ∃ path short members, (path, short, members) ∈ c.interfaces.entries ∧ inModule path short = name

variable {c : Config} {ds : List Doclet} {name : String}

/-! ## Classes and typedefs -/

theorem mem_classes {k : Catalogue} {e : TypeEntry} :
    (name, e) ∈ k.classes ↔ k.resolve? name = some e ∧ e.isClass = true := by
  unfold classes resolve?
  rw [List.mem_filter, OrderedMap.get?_eq_some_iff]

theorem mem_typedefs {k : Catalogue} {e : TypeEntry} :
    (name, e) ∈ k.typedefs ↔ k.resolve? name = some e ∧ e.isClass = false := by
  unfold typedefs resolve?
  rw [List.mem_filter, OrderedMap.get?_eq_some_iff, Bool.not_eq_true']

theorem mem_names_classes {k : Catalogue} :
    name ∈ k.classes.map Prod.fst ↔ ∃ e, k.resolve? name = some e ∧ e.isClass = true := by
  simp [← mem_classes]

theorem mem_names_typedefs {k : Catalogue} :
    name ∈ k.typedefs.map Prod.fst ↔ ∃ e, k.resolve? name = some e ∧ e.isClass = false := by
  simp [← mem_typedefs]

/-- Every longname is that of a class or that of a typedef. -/
theorem mem_names_iff {k : Catalogue} :
    name ∈ k.classes.map Prod.fst ∨ name ∈ k.typedefs.map Prod.fst ↔ name ∈ k.types.keys := by
  rw [mem_names_classes, mem_names_typedefs, OrderedMap.mem_keys_iff]
  constructor
  · rintro (⟨e, found, -⟩ | ⟨e, found, -⟩) <;> exact ⟨e, found⟩
  · rintro ⟨e, found⟩
    cases isClass : e.isClass
    · exact Or.inr ⟨e, found, isClass⟩
    · exact Or.inl ⟨e, found, isClass⟩

/-- The members that are attached to a type are those whose records name it as their parent. -/
theorem attached_of_resolve? {e : TypeEntry} (found : (build c ds).1.resolve? name = some e) :
    e.attached = ((memberDoclets c ds).filter fun m => parentName m = name).map fun m =>
      Member.ofDoclet (memberForm m) e.ownerOfMembers m c := by
  rw [resolve?_build, Option.map_eq_some_iff] at found
  obtain ⟨d, -, rfl⟩ := found
  exact TypeEntry.attached_withMembersOf c d _

/-- What stands under a longname is of the first type with that longname, and has the members whose
parent it is. -/
theorem standsFor_of_resolve? {e : TypeEntry} (found : (build c ds).1.resolve? name = some e) :
    e.StandsFor c ds name e.doclet.kind e.ownerOfMembers ∧ e.doclet.kind.makesType = true := by
  have attached := attached_of_resolve? found
  rw [resolve?_build, Option.map_eq_some_iff] at found
  obtain ⟨d, first, rfl⟩ := found
  have makes : d.kind.makesType = true := by
    have mem := List.mem_filter.1 (List.mem_of_find?_eq_some first)
    exact (Bool.and_eq_true_iff.1 mem.2).1
  refine ⟨⟨rfl, longname_of_find? first, ?_, rfl, TypeEntry.members_withMembersOf c d _, ?_⟩, makes⟩
  · rw [typeDoclets, List.find?_filter] at first
    simp only [Bool.decide_and, Bool.decide_eq_true] at first
    exact first
  · intro m mem
    rw [attached, List.mem_map] at mem
    obtain ⟨r, ofName, rfl⟩ := mem
    exact ⟨of_decide_eq_true (List.mem_filter.1 ofName).2, rfl⟩

theorem standsFor_of_mem_classes {e : TypeEntry} (mem : (name, e) ∈ (build c ds).1.classes) :
    e.StandsFor c ds name .classType .classBody := by
  obtain ⟨found, isClass⟩ := mem_classes.1 mem
  have kind : e.doclet.kind = .classType := of_decide_eq_true isClass
  have owner : e.ownerOfMembers = .classBody := if_pos isClass
  rw [← kind, ← owner]
  exact (standsFor_of_resolve? found).1

theorem standsFor_of_mem_typedefs {e : TypeEntry} (mem : (name, e) ∈ (build c ds).1.typedefs) :
    e.StandsFor c ds name .typedef .interfaceBody := by
  obtain ⟨found, noClass⟩ := mem_typedefs.1 mem
  obtain ⟨stands, makes⟩ := standsFor_of_resolve? found
  have kind : e.doclet.kind = .typedef := by
    have other : e.doclet.kind ≠ .classType := of_decide_eq_false noClass
    cases known : e.doclet.kind <;> simp_all [Doclet.Kind.makesType]
  have owner : e.ownerOfMembers = .interfaceBody := if_neg (by simp [noClass])
  rw [← kind, ← owner]
  exact stands

/-! ## Members -/

/-- The records that are kept have distinct longnames, which were not met before. -/
theorem keepFirst_distinct (ds : List Doclet) (seen : List String) :
    ((keepFirst seen ds).map Doclet.longname).Nodup ∧
      ∀ d ∈ keepFirst seen ds, d ∈ ds ∧ d.longname ∉ seen := by
  induction ds generalizing seen with
  | nil => exact ⟨List.nodup_nil, fun _ mem => nomatch mem⟩
  | cons d rest ih =>
    unfold keepFirst
    by_cases known : d.longname ∈ seen
    · rw [if_pos (List.contains_iff_mem.2 known)]
      obtain ⟨distinct, new⟩ := ih seen
      exact ⟨distinct, fun r mem => ⟨List.mem_cons_of_mem d (new r mem).1, (new r mem).2⟩⟩
    · rw [if_neg fun met => known (List.contains_iff_mem.1 met)]
      obtain ⟨distinct, new⟩ := ih (d.longname :: seen)
      refine ⟨List.nodup_cons.2 ⟨?_, distinct⟩, ?_⟩
      · intro again
        obtain ⟨r, mem, same⟩ := List.mem_map.1 again
        exact (new r mem).2 (same ▸ List.mem_cons_self)
      · intro r mem
        rcases List.mem_cons.1 mem with rfl | later
        · exact ⟨List.mem_cons_self, known⟩
        · exact ⟨List.mem_cons_of_mem d (new r later).1,
            fun met => (new r later).2 (List.mem_cons_of_mem _ met)⟩

theorem mem_memberDoclets {d : Doclet} (mem : d ∈ memberDoclets c ds) :
    d ∈ ds ∧ d.kind.makesMember = true ∧ passesOver c d = false := by
  have kept := ((keepFirst_distinct _ _).2 d mem).1
  rw [List.mem_filter, Bool.and_eq_true, Bool.and_eq_true, Bool.not_eq_true'] at kept
  exact ⟨kept.1, kept.2.1.1, kept.2.1.2⟩

theorem passesOver_eq_false_iff {d : Doclet} :
    passesOver c d = false ↔ d.inherited = false ∧ d.scope ≠ some .innerMember ∧
      c.leavesOut d.longname = false ∧
        ∀ parent, d.memberof = some parent → c.leavesOut parent = false := by
  unfold passesOver
  cases d.memberof <;> simp [and_assoc]

/-- **Every record of a member that counts makes one member**, and there are no other ones. -/
theorem recordMembers_build (c : Config) (ds : List Doclet) :
    ((build c ds).1.recordMembers.map Member.doclet).Perm (memberDoclets c ds) := by
  have ofTypes : (build c ds).1.types.values.flatMap
      (fun e => e.attached.map Member.doclet) = (build c ds).1.types.keys.flatMap fun key =>
        (memberDoclets c ds).filter fun d => parentName d = key := by
    rw [OrderedMap.flatMap_values]
    refine List.flatMap_congr fun key mem => ?_
    obtain ⟨e, found⟩ := OrderedMap.mem_keys_iff.1 mem
    rw [found, Option.elim_some, attached_of_resolve? found, List.map_map]
    exact List.map_id _
  have ofModules : (build c ds).1.moduleMembers.map Member.doclet =
      (memberDoclets c ds).filter fun d => parentName d ∉ (build c ds).1.types.keys := by
    rw [moduleMembers_build, List.map_map]
    exact List.map_id _
  rw [recordMembers, List.map_append, List.map_flatMap, ofTypes, ofModules]
  exact Lists.flatMap_filter_perm parentName (build c ds).1.types.nodup_keys _

/-- A member is of a record that counts, and made as that record asks for. -/
theorem mem_recordMembers {m : Member} (mem : m ∈ (build c ds).1.recordMembers) :
    m.doclet ∈ memberDoclets c ds ∧
      m = Member.ofDoclet (memberForm m.doclet) m.owner m.doclet c := by
  refine ⟨(recordMembers_build c ds).mem_iff.1 (List.mem_map_of_mem mem), ?_⟩
  rcases List.mem_append.1 mem with ofType | ofModule
  · obtain ⟨e, isEntry, attached⟩ := List.mem_flatMap.1 ofType
    obtain ⟨key, found⟩ := OrderedMap.mem_values_iff.1 isEntry
    rw [attached_of_resolve? found, List.mem_map] at attached
    obtain ⟨r, -, rfl⟩ := attached
    rfl
  · rw [moduleMembers_build, List.mem_map] at ofModule
    obtain ⟨r, -, rfl⟩ := ofModule
    rfl

/-! ## Added types -/

/-- Of several added types with one name, the last one counts. -/
theorem get?_addedTypes (ts : List AddedType) (m : OrderedMap AddedType) (name : String) :
    (ts.foldl (fun m t => m.insert t.fullName t) m).get? name =
      (ts.reverse.find? fun t => t.fullName = name).or (m.get? name) := by
  induction ts generalizing m with
  | nil => rfl
  | cons t rest ih =>
    rw [List.foldl_cons, ih, List.reverse_cons, List.find?_append, Option.or_assoc,
      OrderedMap.get?_insert]
    by_cases here : t.fullName = name
    · simp [here]
    · simp [here, Ne.symm here]

theorem get?_addedTypes_build (c : Config) (ds : List Doclet) (name : String) :
    (build c ds).1.addedTypes.get? name =
      (configuredTypes c).reverse.find? fun t => t.fullName = name := by
  rw [addedTypes_build, get?_addedTypes]
  exact Option.or_none

theorem exists_mem_configuredTypes :
    (∃ t ∈ configuredTypes c, t.fullName = name) ↔
      (∃ path short target, (path, short, target) ∈ c.aliases.entries ∧
        inModule path short = name) ∨
      ∃ path short members, (path, short, members) ∈ c.interfaces.entries ∧
        inModule path short = name := by
  unfold configuredTypes
  simp only [List.mem_append, List.mem_map]
  constructor
  · rintro ⟨t, ⟨⟨path, short, target⟩, mem, rfl⟩ | ⟨⟨path, short, members⟩, mem, rfl⟩, named⟩
    · exact Or.inl ⟨path, short, target, mem, named⟩
    · exact Or.inr ⟨path, short, members, mem, named⟩
  · rintro (⟨path, short, target, mem, named⟩ | ⟨path, short, members, mem, named⟩)
    · exact ⟨_, Or.inl ⟨_, mem, rfl⟩, named⟩
    · exact ⟨_, Or.inr ⟨_, mem, rfl⟩, named⟩

/-! ## The whole catalogue -/

/-- **A catalogue represents the records that it is built of.** Every class and every typedef stands
under its longname, no longname stands for both, and each is of the first type with that longname
that is not left out. Members are attached to the type that they name as their parent, or belong to
a module if they name none; of each longname there is one at most in the whole catalogue, and none
that is to be passed over. Added types stand under their full names, which are those of the
configuration. -/
theorem build_represents (c : Config) (ds : List Doclet) : (build c ds).1.Represents c ds where
  classes := fun _ _ mem => standsFor_of_mem_classes mem
  typedefs := fun _ _ mem => standsFor_of_mem_typedefs mem
  apart := by
    -- The first type with a longname decides, and it is of one kind.
    intro name isClass isTypedef
    obtain ⟨⟨_, e⟩, mem, rfl⟩ := List.mem_map.1 isClass
    obtain ⟨⟨_, e'⟩, mem', rfl⟩ := List.mem_map.1 isTypedef
    have same := (standsFor_of_mem_classes mem).kind_eq (standsFor_of_mem_typedefs mem')
    cases same
  longnames := by
    intro name
    rw [mem_names_iff, mem_keys_build]
    simp [typeDoclets, and_assoc]
  moduleMembers := by
    intro m mem
    rw [moduleMembers_build, List.mem_map] at mem
    obtain ⟨d, kept, rfl⟩ := mem
    have noType : parentName d ∉ (build c ds).1.types.keys :=
      of_decide_eq_true (List.mem_filter.1 kept).2
    rw [← mem_names_iff, not_or] at noType
    exact ⟨rfl, noType⟩
  made := by
    intro m mem
    obtain ⟨counts, made⟩ := mem_recordMembers mem
    obtain ⟨given, makes, -⟩ := mem_memberDoclets counts
    exact ⟨given, makes, made⟩
  distinct := by
    have longnames := (recordMembers_build c ds).map Doclet.longname
    rw [List.map_map] at longnames
    exact longnames.nodup_iff.2 (keepFirst_distinct _ _).1
  kept := by
    intro m mem
    exact passesOver_eq_false_iff.1 (mem_memberDoclets (mem_recordMembers mem).1).2.2
  addedTypes := by
    intro name t mem
    have found := OrderedMap.get?_eq_some_iff.2 mem
    rw [get?_addedTypes_build] at found
    simpa using List.find?_some found
  addedNames := by
    intro name
    rw [← exists_mem_configuredTypes, OrderedMap.mem_keys_iff]
    simp only [get?_addedTypes_build, ← Option.isSome_iff_exists, List.find?_isSome]
    simp

end Catalogue

end Ambient
