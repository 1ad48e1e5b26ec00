import Mathlib.Data.List.Basic
import Mathlib.Data.List.Induction
import Ambient.Proofs.Catalogue
import Ambient.Proofs.FunctionTypedef.Expansion
import Ambient.Session
/-!
# What the catalogue of some records holds

The catalogue is built by going through the records one by one. What stands under a longname in the
end can be read off the records: the first type with that longname, and the members that name it as
their parent. If no longname is used twice, nothing is dropped on the way.

## Main definitions

* `Catalogue.parentName`: the longname under which the owner of a member is looked up.
* `TypeEntry.withMembersOf`: an entry with the members that some records make for it.
* `DistinctLongnames`: no two types, and no two members, have the same longname.
* `closedCatalogue`: the catalogue of a run after its public surface was closed.

## Main statements

* `Session.doclets_addAll`, `Session.findings_addAll`: what a session takes in.
* `Catalogue.resolve?_placeMembers`, `Catalogue.moduleMembers_placeMembers`: where members go.
* `Catalogue.resolve?_addTypes`: of several types with one longname, the first one counts.
* `Catalogue.resolve?_build`: what stands under a longname.
* `publicTypes_generate` and so on: what a run gives, in terms of the closed catalogue.
* `Session.output_addAll`: what a fresh session gives.
-/

namespace Ambient

/-! ## Taking in records -/

theorem Finding.countWarnings_append (fs gs : List Finding) :
    countWarnings (fs ++ gs) = countWarnings fs + countWarnings gs :=
  List.countP_append ..

namespace Session

theorem config_addAll (s : Session) (ds : List Doclet) : (s.addAll ds).config = s.config := by
  induction ds generalizing s with
  | nil => rfl
  | cons d rest ih => exact ih (s.add d)

theorem doclets_addAll (s : Session) (ds : List Doclet) :
    (s.addAll ds).doclets = s.doclets ++ ds.map fun d => (FunctionTypedef.expand d).1 := by
  induction ds generalizing s with
  | nil => exact (List.append_nil _).symm
  | cons d rest ih =>
    show ((s.add d).addAll rest).doclets = _
    rw [ih, List.map_cons]
    exact List.append_assoc ..

theorem findings_addAll (s : Session) (ds : List Doclet) :
    (s.addAll ds).findings = s.findings ++ ds.flatMap fun d => (FunctionTypedef.expand d).2 := by
  induction ds generalizing s with
  | nil => exact (List.append_nil _).symm
  | cons d rest ih =>
    show ((s.add d).addAll rest).findings = _
    rw [ih, List.flatMap_cons]
    exact List.append_assoc ..

/-- Taking in records warns of nothing. -/
theorem countWarnings_addAll (s : Session) (ds : List Doclet) :
    Finding.countWarnings (s.addAll ds).findings = Finding.countWarnings s.findings := by
  induction ds generalizing s with
  | nil => rfl
  | cons d rest ih =>
    have one : Finding.countWarnings (s.add d).findings = Finding.countWarnings s.findings := by
      show Finding.countWarnings (s.findings ++ (FunctionTypedef.expand d).2) = _
      rw [Finding.countWarnings_append, FunctionTypedef.countWarnings_expand, Nat.add_zero]
    exact (ih (s.add d)).trans one

end Session

/-- No two records of types have the same longname, and no two records of members. -/
structure DistinctLongnames (ds : List Doclet) : Prop where
  types : ((ds.filter fun d => d.kind.makesType).map Doclet.longname).Nodup
  members : ((ds.filter fun d => d.kind.makesMember).map Doclet.longname).Nodup

namespace DistinctLongnames

variable {ds ds' : List Doclet}

theorem perm (h : DistinctLongnames ds) (same : ds.Perm ds') : DistinctLongnames ds' where
  types := ((same.filter _).map _).nodup_iff.1 h.types
  members := ((same.filter _).map _).nodup_iff.1 h.members

/-- Expansion leaves longnames distinct. -/
theorem expanded (h : DistinctLongnames ds) :
    DistinctLongnames (ds.map fun d => (FunctionTypedef.expand d).1) := by
  have kept : ∀ p : Doclet.Kind → Bool,
      ((ds.map fun d => (FunctionTypedef.expand d).1).filter fun d => p d.kind).map
        Doclet.longname = (ds.filter fun d => p d.kind).map Doclet.longname := by
    intro p
    rw [List.filter_map, List.map_map]
    simp only [Function.comp_def, FunctionTypedef.kind_expand, FunctionTypedef.longname_expand]
  refine ⟨?_, ?_⟩
  · rw [kept]
    exact h.types
  · rw [kept]
    exact h.members

end DistinctLongnames

namespace Catalogue

variable {c : Config} {k : Catalogue} {ds : List Doclet} {name : String}

/-! ## Types -/

/-- The record of a new longname comes last. -/
theorem addType_of_new {state : Catalogue × List Finding} {d : Doclet}
    (new : state.1.types.contains d.longname = false) :
    addType c state d =
      ({ state.1 with types := state.1.types.insert d.longname (.ofDoclet d c) }, state.2) := by
  simp [addType, new]

/-- A further record of a longname is noted and dropped. -/
theorem addType_of_known {state : Catalogue × List Finding} {d : Doclet}
    (known : state.1.types.contains d.longname = true) :
    addType c state d = (state.1, state.2 ++ [duplicateDefinition d.longname]) := by
  simp [addType, known]

theorem resolve?_addType (state : Catalogue × List Finding) (d : Doclet) (name : String) :
    (addType c state d).1.resolve? name = (state.1.resolve? name).or
      (if d.longname = name then some (TypeEntry.ofDoclet d c) else none) := by
  by_cases known : state.1.types.contains d.longname = true
  · rw [addType_of_known known]
    by_cases here : d.longname = name
    · subst here
      obtain ⟨e, found⟩ := Option.isSome_iff_exists.1 known
      show state.1.resolve? d.longname = _
      rw [show state.1.resolve? d.longname = some e from found, Option.some_or]
    · rw [if_neg here, Option.or_none]
  · have new : state.1.types.contains d.longname = false := by simpa using known
    rw [addType_of_new new]
    show (state.1.types.insert _ _).get? name = _
    rw [OrderedMap.get?_insert_of_not_contains new]
    by_cases here : d.longname = name
    · subst here
      have absent : state.1.resolve? d.longname = none := by
        simpa [OrderedMap.contains, resolve?] using new
      rw [if_pos rfl, if_pos rfl, absent, Option.none_or]
    · rw [if_neg (Ne.symm here), if_neg here, Option.or_none]
      rfl

/-- **Of the records with one longname, the first one counts.** -/
theorem resolve?_addTypes (ts : List Doclet) (state : Catalogue × List Finding) (name : String) :
    (ts.foldl (addType c) state).1.resolve? name = (state.1.resolve? name).or
      ((ts.find? fun d => d.longname = name).map fun d => TypeEntry.ofDoclet d c) := by
  induction ts generalizing state with
  | nil => exact Option.or_none.symm
  | cons d rest ih =>
    rw [List.foldl_cons, ih, resolve?_addType, Option.or_assoc]
    by_cases here : d.longname = name <;> simp [here]

theorem longname_of_find? {ts : List Doclet} {d : Doclet}
    (first : (ts.find? fun d => d.longname = name) = some d) : d.longname = name := by
  simpa using List.find?_some first

/-- Types come in on their own. -/
theorem addTypes_only (ts : List Doclet) (state : Catalogue × List Finding) :
    (ts.foldl (addType c) state).1.addedTypes = state.1.addedTypes ∧
      (ts.foldl (addType c) state).1.moduleMembers = state.1.moduleMembers := by
  induction ts generalizing state with
  | nil => exact ⟨rfl, rfl⟩
  | cons d rest ih =>
    have one : (addType c state d).1.addedTypes = state.1.addedTypes ∧
        (addType c state d).1.moduleMembers = state.1.moduleMembers := by
      cases known : state.1.types.contains d.longname with
      | true =>
        rw [addType_of_known known]
        exact ⟨rfl, rfl⟩
      | false =>
        rw [addType_of_new known]
        exact ⟨rfl, rfl⟩
    rw [List.foldl_cons, (ih _).1, (ih _).2]
    exact one

/-- Nothing is noted about types with distinct longnames. -/
theorem findings_addTypes (ts : List Doclet) (distinct : (ts.map Doclet.longname).Nodup)
    (state : Catalogue × List Finding)
    (new : ∀ d ∈ ts, state.1.types.contains d.longname = false) :
    (ts.foldl (addType c) state).2 = state.2 := by
  induction ts generalizing state with
  | nil => rfl
  | cons d rest ih =>
    rw [List.map_cons, List.nodup_cons] at distinct
    have first := addType_of_new (c := c) (new d List.mem_cons_self)
    rw [List.foldl_cons, ih distinct.2]
    · rw [first]
    · intro other mem
      have apart : other.longname ≠ d.longname :=
        fun same => distinct.1 (same ▸ List.mem_map_of_mem mem)
      have before := new other (List.mem_cons_of_mem d mem)
      rw [first, Bool.eq_false_iff, ne_eq, OrderedMap.contains_iff] at *
      rw [OrderedMap.keys_insert]
      split <;> simp [before, apart]

/-! ## Members -/

/-- The longname under which the owner of a member is looked up; empty if none is given. -/
def parentName (d : Doclet) : String := d.memberof.getD ""

end Catalogue

/-- An entry with the members that some records make for it. -/
def TypeEntry.withMembersOf (c : Config) (ms : List Doclet) (e : TypeEntry) : TypeEntry :=
  { e with members := e.members ++ ms.map fun d =>
      Member.ofDoclet (Catalogue.memberForm d) e.ownerOfMembers d c }

theorem TypeEntry.map_withMembersOf_nil (c : Config) (found : Option TypeEntry) :
    found.map (withMembersOf c []) = found := by
  cases found <;> simp [withMembersOf]

namespace Catalogue

variable {c : Config} {k : Catalogue} {ds : List Doclet} {name : String}

theorem placeMember_of_owner {d : Doclet} {e : TypeEntry}
    (owner : k.resolve? (parentName d) = some e) :
    placeMember c k d =
      { k with types := k.types.modify (parentName d) fun entry =>
          entry.attach (Member.ofDoclet (memberForm d) e.ownerOfMembers d c) } := by
  unfold resolve? parentName at owner
  simp only [placeMember, owner, parentName]

theorem placeMember_of_module {d : Doclet} (owner : k.resolve? (parentName d) = none) :
    placeMember c k d =
      { k with moduleMembers :=
          k.moduleMembers ++ [Member.ofDoclet (memberForm d) .moduleLevel d c] } := by
  unfold resolve? parentName at owner
  simp only [placeMember, owner]

theorem keys_placeMember (k : Catalogue) (d : Doclet) :
    (placeMember c k d).types.keys = k.types.keys := by
  cases owner : k.resolve? (parentName d) with
  | none => rw [placeMember_of_module owner]
  | some entry =>
    rw [placeMember_of_owner owner]
    exact OrderedMap.keys_modify k.types _ _

theorem keys_placeMembers (ds : List Doclet) (k : Catalogue) :
    (ds.foldl (placeMember c) k).types.keys = k.types.keys := by
  induction ds generalizing k with
  | nil => rfl
  | cons d rest ih => rw [List.foldl_cons, ih, keys_placeMember]

theorem addedTypes_placeMember (k : Catalogue) (d : Doclet) :
    (placeMember c k d).addedTypes = k.addedTypes := by
  cases owner : k.resolve? (parentName d) with
  | none => rw [placeMember_of_module owner]
  | some entry => rw [placeMember_of_owner owner]

theorem addedTypes_placeMembers (ds : List Doclet) (k : Catalogue) :
    (ds.foldl (placeMember c) k).addedTypes = k.addedTypes := by
  induction ds generalizing k with
  | nil => rfl
  | cons d rest ih => rw [List.foldl_cons, ih, addedTypes_placeMember]

theorem resolve?_placeMember (k : Catalogue) (d : Doclet) :
    (placeMember c k d).resolve? name =
      (k.resolve? name).map
        (TypeEntry.withMembersOf c (if parentName d = name then [d] else [])) := by
  cases owner : k.resolve? (parentName d) with
  | none =>
    rw [placeMember_of_module owner]
    show k.resolve? name = _
    by_cases here : parentName d = name
    · rw [← here, owner]
      rfl
    · rw [if_neg here, TypeEntry.map_withMembersOf_nil]
  | some entry =>
    rw [placeMember_of_owner owner]
    show (k.types.modify (parentName d) _).get? name = (k.resolve? name).map _
    rw [OrderedMap.get?_modify]
    by_cases here : parentName d = name
    · subst here
      unfold resolve? at owner
      simp [resolve?, owner, TypeEntry.withMembersOf, TypeEntry.attach]
    · rw [if_neg (Ne.symm here), if_neg here, TypeEntry.map_withMembersOf_nil]
      rfl

/-- **A type gets the members whose parent it is**, in the order of their records. -/
theorem resolve?_placeMembers (ds : List Doclet) (k : Catalogue) (name : String) :
    (ds.foldl (placeMember c) k).resolve? name =
      (k.resolve? name).map
        (TypeEntry.withMembersOf c (ds.filter fun d => parentName d = name)) := by
  induction ds generalizing k with
  | nil =>
    show k.resolve? name = (k.resolve? name).map (TypeEntry.withMembersOf c [])
    rw [TypeEntry.map_withMembersOf_nil]
  | cons d rest ih =>
    rw [List.foldl_cons, ih, resolve?_placeMember, Option.map_map]
    congr 1
    funext e
    by_cases here : parentName d = name
    · simp [here, TypeEntry.withMembersOf, TypeEntry.ownerOfMembers, TypeEntry.isClass]
    · simp [here, TypeEntry.withMembersOf]

/-- A member without an owner goes to its module. -/
theorem moduleMembers_placeMember (k : Catalogue) (d : Doclet) :
    (placeMember c k d).moduleMembers = k.moduleMembers ++
      if k.types.contains (parentName d) then []
      else [Member.ofDoclet (memberForm d) .moduleLevel d c] := by
  unfold OrderedMap.contains
  cases owner : k.resolve? (parentName d) with
  | none =>
    rw [placeMember_of_module owner]
    unfold resolve? at owner
    rw [owner]
    rfl
  | some entry =>
    rw [placeMember_of_owner owner]
    unfold resolve? at owner
    rw [owner]
    exact (List.append_nil _).symm

/-- **Members without an owner go to their modules**, in the order of their records. -/
theorem moduleMembers_placeMembers (ds : List Doclet) (k : Catalogue) :
    (ds.foldl (placeMember c) k).moduleMembers =
      k.moduleMembers ++ (ds.filter fun d => !k.types.contains (parentName d)).map fun d =>
        Member.ofDoclet (memberForm d) .moduleLevel d c := by
  induction ds generalizing k with
  | nil => exact (List.append_nil _).symm
  | cons d rest ih =>
    have sameKeys : ∀ parent, (placeMember c k d).types.contains parent =
        k.types.contains parent := by
      intro parent
      rw [Bool.eq_iff_iff, OrderedMap.contains_iff, OrderedMap.contains_iff, keys_placeMember]
    rw [List.foldl_cons, ih, moduleMembers_placeMember, List.append_assoc]
    simp only [sameKeys]
    cases owned : k.types.contains (parentName d) <;> simp [owned]

/-! ## Records that are dropped -/

/-- Nothing is dropped from records with distinct longnames. -/
theorem keepFirst_of_distinct (ds : List Doclet) (seen : List String)
    (distinct : (ds.map Doclet.longname).Nodup) (new : ∀ d ∈ ds, d.longname ∉ seen) :
    keepFirst seen ds = ds := by
  induction ds generalizing seen with
  | nil => rfl
  | cons d rest ih =>
    rw [List.map_cons, List.nodup_cons] at distinct
    have unseen : ¬ seen.contains d.longname = true := by
      simpa using new d List.mem_cons_self
    unfold keepFirst
    rw [if_neg unseen, ih (d.longname :: seen) distinct.2]
    intro other mem
    rw [List.mem_cons, not_or]
    refine ⟨fun same => ?_, new other (List.mem_cons_of_mem d mem)⟩
    exact distinct.1 (same ▸ List.mem_map_of_mem mem)

/-- Whether a member is made of a record among some, copies aside. -/
def makesMemberAmong (c : Config) (ds : List Doclet) (d : Doclet) : Bool :=
  d.kind.makesMember && !passesOver c d &&
    !(d.undocumented && (documentedMembers ds).contains d.longname)

theorem memberDoclets_of_distinct (c : Config) (distinct : DistinctLongnames ds) :
    memberDoclets c ds = ds.filter (makesMemberAmong c ds) := by
  have kept : ((ds.filter (makesMemberAmong c ds)).map Doclet.longname).Nodup := by
    refine distinct.members.sublist (List.Sublist.map _ ?_)
    refine List.monotone_filter_right ds fun d makes => ?_
    simp only [makesMemberAmong, Bool.and_eq_true] at makes
    exact makes.1.1
  exact keepFirst_of_distinct _ [] kept fun _ _ => List.not_mem_nil

theorem typeDoclets_distinct (c : Config) (distinct : DistinctLongnames ds) :
    ((typeDoclets c ds).map Doclet.longname).Nodup := by
  refine distinct.types.sublist (List.Sublist.map _ ?_)
  refine List.monotone_filter_right ds fun d makes => ?_
  rw [Bool.and_eq_true] at makes
  exact makes.1

/-! ## The whole catalogue -/

/-- The types that the configuration adds are put in on their own. -/
theorem foldl_putAddedType (ts : List AddedType) (k : Catalogue) :
    ts.foldl putAddedType k =
      { k with addedTypes := ts.foldl (fun m t => m.insert t.fullName t) k.addedTypes } := by
  induction ts generalizing k with
  | nil => rfl
  | cons t rest ih => exact ih (putAddedType k t)

section Build

variable (c) (ds)

/-- **Under a longname stands the first type of that longname, with its members.** -/
theorem resolve?_build (name : String) :
    (build c ds).1.resolve? name =
      ((typeDoclets c ds).find? fun d => d.longname = name).map fun d =>
        (TypeEntry.ofDoclet d c).withMembersOf c
          ((memberDoclets c ds).filter fun m => parentName m = name) := by
  have built : (build c ds).1.resolve? name =
      (((typeDoclets c ds).foldl (addType c) ({}, [])).1.resolve? name).map
        (TypeEntry.withMembersOf c ((memberDoclets c ds).filter fun m => parentName m = name)) := by
    rw [← resolve?_placeMembers]
    show ((configuredTypes c).foldl putAddedType _).resolve? name = _
    rw [foldl_putAddedType]
    rfl
  rw [built, resolve?_addTypes, Option.map_or, Option.map_map]
  rfl

theorem mem_keys_build {name : String} :
    name ∈ (build c ds).1.types.keys ↔ ∃ d ∈ typeDoclets c ds, d.longname = name := by
  have found : (∃ e, (build c ds).1.resolve? name = some e) ↔
      ∃ d ∈ typeDoclets c ds, d.longname = name := by
    rw [← Option.isSome_iff_exists, resolve?_build, Option.isSome_map, List.find?_isSome]
    simp
  exact OrderedMap.mem_keys_iff.trans found

/-- Placing members changes no key. -/
theorem keys_build :
    (build c ds).1.types.keys =
      ((typeDoclets c ds).foldl (addType c) ({}, [])).1.types.keys := by
  show ((configuredTypes c).foldl putAddedType _).types.keys = _
  rw [foldl_putAddedType]
  exact keys_placeMembers _ _

/-- The members that no class or typedef owns go to their modules. -/
theorem moduleMembers_build :
    (build c ds).1.moduleMembers =
      ((memberDoclets c ds).filter fun d => parentName d ∉ (build c ds).1.types.keys).map fun d =>
        Member.ofDoclet (memberForm d) .moduleLevel d c := by
  have owned : ∀ parent,
      ((typeDoclets c ds).foldl (addType c) ({}, [])).1.types.contains parent =
        decide (parent ∈ (build c ds).1.types.keys) := by
    intro parent
    rw [Bool.eq_iff_iff, OrderedMap.contains_iff, decide_eq_true_iff, keys_build]
  show ((configuredTypes c).foldl putAddedType _).moduleMembers = _
  rw [foldl_putAddedType, moduleMembers_placeMembers, (addTypes_only _ _).2]
  simp [owned]

theorem addedTypes_build :
    (build c ds).1.addedTypes =
      (configuredTypes c).foldl (fun m t => m.insert t.fullName t) .empty := by
  show ((configuredTypes c).foldl putAddedType _).addedTypes = _
  rw [foldl_putAddedType, addedTypes_placeMembers, (addTypes_only _ _).1]

/-- Nothing is noted in building a catalogue of distinct longnames. -/
theorem findings_build (distinct : DistinctLongnames ds) : (build c ds).2 = [] :=
  findings_addTypes _ (typeDoclets_distinct c distinct) ({}, []) fun _ _ => rfl

end Build

end Catalogue

/-! ## How many types there are -/

namespace Catalogue

theorem length_classes_eq (k : Catalogue) :
    k.classes.length = (k.types.values.map TypeEntry.isClass).countP id := by
  rw [OrderedMap.values, List.countP_map, List.countP_map]
  exact List.countP_eq_length_filter.symm

theorem length_typedefs_eq (k : Catalogue) :
    k.typedefs.length = (k.types.values.map TypeEntry.isClass).countP (! ·) := by
  rw [OrderedMap.values, List.countP_map, List.countP_map]
  exact List.countP_eq_length_filter.symm

end Catalogue

/-! ## What a run gives -/

section Generate

variable (c : Config) (ds : List Doclet) (earlier : List Finding)

/-- The catalogue of a run after its public surface was closed. -/
def closedCatalogue : Catalogue := (Surface.run c (Catalogue.build c ds).1).1.catalogue

theorem publicTypes_generate :
    (generate c ds earlier).publicTypes = (closedCatalogue c ds).publicTypes := by
  simp only [generate, Surface.close]
  rfl

theorem unresolved_generate :
    (generate c ds earlier).unresolved =
      (Surface.run c (Catalogue.build c ds).1).1.unresolved.names := by
  simp only [generate, Surface.close]

theorem declarations_generate :
    (generate c ds earlier).declarations =
      (Page.run {} (((Outline.ofDeclarations (closedCatalogue c ds).emitted).render c 0).steps
        c)).text := by
  simp only [generate, Surface.close]
  rfl

theorem findings_generate :
    (generate c ds earlier).findings =
      earlier ++ (Catalogue.build c ds).2 ++ (Surface.run c (Catalogue.build c ds).1).1.findings ++
        ((Outline.ofDeclarations (closedCatalogue c ds).emitted).render c 0).findings c := by
  simp only [generate, Surface.close]
  rfl

theorem stats_generate :
    (generate c ds earlier).stats =
      { classes := (closedCatalogue c ds).classes.length
        typedefs := (closedCatalogue c ds).typedefs.length
        moduleMembers := (closedCatalogue c ds).moduleMembers.length
        addedTypes := (closedCatalogue c ds).addedTypes.size
        publicTypes := (closedCatalogue c ds).publicTypes.length
        hoisted := (Surface.run c (Catalogue.build c ds).1).1.hoisted.length
        unresolved := (Surface.run c (Catalogue.build c ds).1).1.unresolved.names.length
        passes := (Surface.run c (Catalogue.build c ds).1).2
        warnings := Finding.countWarnings (generate c ds earlier).findings } := by
  simp only [generate, Surface.close]
  rfl

end Generate

/-- What a fresh session gives for some records. -/
theorem Session.output_addAll (c : Config) (ds : List Doclet) :
    (({ config := c } : Session).addAll ds).generate.2 =
      Ambient.generate c (({ config := c } : Session).addAll ds).doclets
        (({ config := c } : Session).addAll ds).findings := by
  show Ambient.generate (({ config := c } : Session).addAll ds).config _ _ = _
  rw [config_addAll]

end Ambient
