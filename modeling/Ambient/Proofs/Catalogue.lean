import Ambient.Catalogue
import Ambient.Proofs.OrderedMap
import Ambient.Proofs.Visit
/-!
# Laws of the catalogue

Publishing is the only thing that happens to a catalogue once it is built. It raises one flag and
leaves everything else alone, so what a later moment of a run looks like is known from the first one
except for which classes and typedefs are public.

## Main definitions

* `TypeEntry.RaisedTo`: an entry at two moments, with nothing but its flag raised in between.
* `Catalogue.OnlyPublishes`: the same for a whole catalogue.
* `Catalogue.KeyedByLongname`: every class and typedef stands under its own longname.

## Main statements

* `Catalogue.keyed_build`: a catalogue of records is keyed by longname.
* `Catalogue.OnlyPublishes.publish`: publishing only publishes.
* `Catalogue.emitted_perm`, `Catalogue.mem_emitted`: what is written.
-/

namespace Ambient

/-! ## Entries at two moments -/

namespace TypeEntry

/-- The entry `e` at a later moment: it may have become public, and nothing else changed. -/
structure RaisedTo (e later : TypeEntry) : Prop where
  doclet : later.doclet = e.doclet
  members : later.members = e.members
  isPublic : e.isPublic = true → later.isPublic = true

namespace RaisedTo

theorem refl (e : TypeEntry) : e.RaisedTo e := ⟨rfl, rfl, id⟩

theorem trans {e₁ e₂ e₃ : TypeEntry} (h : e₁.RaisedTo e₂) (h' : e₂.RaisedTo e₃) :
    e₁.RaisedTo e₃ where
  doclet := h'.doclet.trans h.doclet
  members := h'.members.trans h.members
  isPublic shown := h'.isPublic (h.isPublic shown)

theorem publish (e : TypeEntry) : e.RaisedTo e.publish := ⟨rfl, rfl, fun _ => rfl⟩

end RaisedTo

@[simp] theorem isPublic_toDeclaration (e : TypeEntry) : e.toDeclaration.isPublic = e.isPublic := by
  unfold toDeclaration
  split <;> rfl

/-- The flag of a class or typedef makes no difference to what is met in a visit. -/
theorem RaisedTo.visit_toDeclaration {e later : TypeEntry} (h : e.RaisedTo later) {σ : Type}
    (rec : Recorder σ) (s : σ) :
    later.toDeclaration.visit rec s = e.toDeclaration.visit rec s := by
  unfold toDeclaration isClass
  rw [h.doclet, h.members]
  by_cases classType : e.doclet.kind = .classType
  · simp [classType, Declaration.visit]
  · cases e.members <;> simp [classType, Declaration.visit]

theorem RaisedTo.recorded_toDeclaration {e later : TypeEntry} (h : e.RaisedTo later) (c : Config) :
    later.toDeclaration.recorded c = e.toDeclaration.recorded c := by
  unfold Declaration.recorded Declaration.collect
  rw [h.visit_toDeclaration]

end TypeEntry

namespace Catalogue

/-! ## What is written -/

/-- Up to order, the public part of the entries and of the module members is written, and what the
configuration adds. -/
theorem emitted_perm (k : Catalogue) :
    k.emitted.Perm ((k.types.values.filter TypeEntry.isPublic).map TypeEntry.toDeclaration ++
      (k.moduleMembers.map Declaration.member).filter Declaration.isPublic ++
        k.addedDeclarations) := by
  have types : (k.classes ++ k.typedefs).Perm k.types.entries := List.filter_append_perm _ _
  have shown : (k.types.entries.map fun entry => entry.2.toDeclaration).filter
      Declaration.isPublic = (k.types.values.filter TypeEntry.isPublic).map
        TypeEntry.toDeclaration := by
    rw [OrderedMap.values, List.filter_map, List.filter_map, List.map_map]
    simp only [Function.comp_def, TypeEntry.isPublic_toDeclaration]
  unfold emitted declared
  rw [List.filter_append, ← shown]
  exact (((types.map _).filter _).append_right _).append_right _

/-- What is written: the public classes and typedefs, the public module members, and what the
configuration adds. -/
theorem mem_emitted {k : Catalogue} {d : Declaration} :
    d ∈ k.emitted ↔
      (∃ e ∈ k.types.values, e.isPublic = true ∧ e.toDeclaration = d) ∨
      (∃ m ∈ k.moduleMembers, m.isPublic = true ∧ Declaration.member m = d) ∨
      ∃ t ∈ k.addedTypes.values, t.toDeclaration = d := by
  rw [(emitted_perm k).mem_iff, List.mem_append, List.mem_append, or_assoc]
  refine or_congr ?_ (or_congr ?_ List.mem_map)
  · simp only [List.mem_map, List.mem_filter, and_assoc]
  · rw [List.filter_map]
    simp only [List.mem_map, List.mem_filter, and_assoc]
    rfl

/-! ## Keys -/

/-- Every class and typedef stands under its own longname. -/
def KeyedByLongname (k : Catalogue) : Prop :=
  ∀ name e, k.resolve? name = some e → e.doclet.longname = name

theorem KeyedByLongname.resolve? {k : Catalogue} (keyed : k.KeyedByLongname) {e : TypeEntry}
    (mem : e ∈ k.types.values) : k.resolve? e.doclet.longname = some e := by
  obtain ⟨name, found⟩ := OrderedMap.mem_values_iff.1 mem
  rw [keyed name e found]
  exact found

theorem keyed_addType {c : Config} {state : Catalogue × List Finding}
    (keyed : state.1.KeyedByLongname) (d : Doclet) : (addType c state d).1.KeyedByLongname := by
  unfold addType
  by_cases known : state.1.types.contains d.longname = true
  · simpa [known] using keyed
  · intro name e found
    have new : state.1.types.contains d.longname = false := by simpa using known
    simp only [new, Bool.false_eq_true, if_false, Catalogue.resolve?,
      OrderedMap.get?_insert_of_not_contains new] at found
    split at found
    · rename_i here
      cases found
      exact here.symm
    · exact keyed name e found

theorem keyed_placeMember {c : Config} {k : Catalogue} (keyed : k.KeyedByLongname) (d : Doclet) :
    (placeMember c k d).KeyedByLongname := by
  unfold placeMember
  intro name e found
  cases owner : k.types.get? (d.memberof.getD "") with
  | none =>
    simp only [owner] at found
    exact keyed name e found
  | some entry =>
    simp only [owner, Catalogue.resolve?, OrderedMap.get?_modify] at found
    split at found
    · -- Attaching a member does not touch the record of the owner.
      obtain ⟨old, was, rfl⟩ := Option.map_eq_some_iff.1 found
      exact keyed name old was
    · exact keyed name e found

/-- A catalogue of records is keyed by longname. -/
theorem keyed_build (c : Config) (doclets : List Doclet) : (build c doclets).1.KeyedByLongname := by
  unfold build
  have types : ((typeDoclets c doclets).foldl (addType c) ({}, [])).1.KeyedByLongname := by
    refine List.foldlRecOn (motive := fun state : Catalogue × List Finding =>
      state.1.KeyedByLongname) _ _ ?_ fun state keyed d _ => keyed_addType keyed d
    intro name e found
    cases found
  have members := List.foldlRecOn (motive := KeyedByLongname) (memberDoclets c doclets)
    (placeMember c) types fun k keyed d _ => keyed_placeMember keyed d
  exact List.foldlRecOn (motive := KeyedByLongname) (configuredTypes c) putAddedType members
    fun k keyed t _ => keyed

/-! ## A catalogue at two moments -/

/-- The catalogue `k` at a later moment: some classes and typedefs may have become public, and
nothing else changed. -/
structure OnlyPublishes (k later : Catalogue) : Prop where
  addedTypes : later.addedTypes = k.addedTypes
  moduleMembers : later.moduleMembers = k.moduleMembers
  /-- The keys are the same, in the same order. -/
  keys : later.types.keys = k.types.keys
  raised : ∀ name e, k.resolve? name = some e →
    ∃ e', later.resolve? name = some e' ∧ e.RaisedTo e'

namespace OnlyPublishes

theorem refl (k : Catalogue) : k.OnlyPublishes k :=
  ⟨rfl, rfl, rfl, fun _ e found => ⟨e, found, TypeEntry.RaisedTo.refl e⟩⟩

theorem trans {k₁ k₂ k₃ : Catalogue} (h : k₁.OnlyPublishes k₂) (h' : k₂.OnlyPublishes k₃) :
    k₁.OnlyPublishes k₃ where
  addedTypes := h'.addedTypes.trans h.addedTypes
  moduleMembers := h'.moduleMembers.trans h.moduleMembers
  keys := h'.keys.trans h.keys
  raised := by
    intro name e found
    obtain ⟨e', found', raised⟩ := h.raised name e found
    obtain ⟨e'', found'', raised'⟩ := h'.raised name e' found'
    exact ⟨e'', found'', raised.trans raised'⟩

/-- Publishing only publishes. -/
theorem publish (k : Catalogue) (name : String) : k.OnlyPublishes (k.publish name) where
  addedTypes := rfl
  moduleMembers := rfl
  keys := OrderedMap.keys_modify k.types name TypeEntry.publish
  raised := by
    intro other e found
    unfold Catalogue.resolve? at found
    simp only [Catalogue.resolve?, Catalogue.publish, OrderedMap.get?_modify, found]
    by_cases here : other = name
    · exact ⟨e.publish, by simp [here], TypeEntry.RaisedTo.publish e⟩
    · exact ⟨e, by simp [here], TypeEntry.RaisedTo.refl e⟩

variable {k later : Catalogue}

/-- Every entry at the later moment was there before. -/
theorem raised_back (h : k.OnlyPublishes later) {name : String} {e' : TypeEntry}
    (found : later.resolve? name = some e') : ∃ e, k.resolve? name = some e ∧ e.RaisedTo e' := by
  have key : name ∈ k.types.keys := by
    rw [← h.keys]
    exact OrderedMap.mem_keys_iff.2 ⟨e', found⟩
  obtain ⟨e, before⟩ := OrderedMap.mem_keys_iff.1 key
  obtain ⟨e'', after, raised⟩ := h.raised name e before
  cases found.symm.trans after
  exact ⟨e, before, raised⟩

theorem resolve?_eq_none_iff (h : k.OnlyPublishes later) {name : String} :
    later.resolve? name = none ↔ k.resolve? name = none := by
  unfold Catalogue.resolve?
  rw [OrderedMap.get?_eq_none_iff, OrderedMap.get?_eq_none_iff, h.keys]

theorem keyedByLongname (h : k.OnlyPublishes later) (keyed : k.KeyedByLongname) :
    later.KeyedByLongname := by
  intro name e' found
  obtain ⟨e, before, raised⟩ := h.raised_back found
  rw [raised.doclet]
  exact keyed name e before

end OnlyPublishes

end Catalogue

end Ambient
