import Mathlib.Data.Set.Basic
import Ambient.Proofs.Alike.Records
/-!
# Records that differ out of sight

Two lists of records that differ only in what is out of sight: in members that are not public, and in
types that stay hidden. Their catalogues have the same keys, and what differs in them is again out of
sight.

## Main definitions

* `Doclet.AgreesAsMember`, `Doclet.AgreesAsType`: records that differ in what is written of a member,
  or of a type.
* `Doclet.Twin`: records at the same position of two lists.
* `Member.Twin`, `TypeEntry.Twin`, `Catalogue.Twin`: what becomes of them.

## Main statements

* `Doclet.Twin.expand`: expanded twins are twins.
* `Catalogue.build_twin`: twin records make twin catalogues.

## Design notes

Which types stay hidden is known only after the public surface of one of the catalogues was closed.
Here it is given as a set of longnames: types with other longnames may differ.
-/

namespace Ambient

namespace Doclet

/-- The second record differs from the first in what is written of a member at most. -/
def AgreesAsMember (d d' : Doclet) : Prop :=
  d' = { d with
    type := d'.type, params := d'.params, returns := d'.returns, description := d'.description,
    comment := d'.comment, nullable := d'.nullable, isOptional := d'.isOptional }

/-- The second record differs from the first in what is written of a type at most. -/
def AgreesAsType (d d' : Doclet) : Prop :=
  d' = { d with
    description := d'.description, classdesc := d'.classdesc, type := d'.type, params := d'.params,
    returns := d'.returns, properties := d'.properties, augments := d'.augments,
    comment := d'.comment }

/-- Two records at the same position of two lists. They are the same, or they make members that are
not public and have no owner that shows them, or they make types that are not shown. -/
inductive Twin (c : Config) (owned : Option String → Prop) (shown : Set String) :
    Doclet → Doclet → Prop
  | same (d : Doclet) : Twin c owned shown d d
  | member {d d' : Doclet} (makes : d.kind.makesMember = true)
      (hidden : d.isPublicByItself c.publicAnnotation = false) (free : ¬ owned d.memberof)
      (agrees : d.AgreesAsMember d') : Twin c owned shown d d'
  | type {d d' : Doclet} (makes : d.kind.makesType = true) (hidden : d.longname ∉ shown)
      (agrees : d.AgreesAsType d') : Twin c owned shown d d'

namespace SamePlace

variable {d d' : Doclet}

theorem ofMember (h : d.AgreesAsMember d') : SamePlace d d' := by
  unfold AgreesAsMember at h
  rw [h]
  refine ⟨rfl, rfl, rfl, rfl, rfl, rfl, fun annotation => ?_⟩
  cases annotation <;> rfl

theorem ofType (h : d.AgreesAsType d') : SamePlace d d' := by
  unfold AgreesAsType at h
  rw [h]
  refine ⟨rfl, rfl, rfl, rfl, rfl, rfl, fun annotation => ?_⟩
  cases annotation <;> rfl

end SamePlace

namespace Twin

variable {c : Config} {owned : Option String → Prop} {shown : Set String} {d d' : Doclet}

theorem samePlace (h : Twin c owned shown d d') : SamePlace d d' := by
  cases h with
  | same => exact SamePlace.refl d
  | member _ _ _ agrees => exact SamePlace.ofMember agrees
  | type _ _ agrees => exact SamePlace.ofType agrees

/-- A type that is shown is the same in both lists. -/
theorem eq_of_shown (h : Twin c owned shown d d') (makes : d.kind.makesType = true)
    (isShown : d.longname ∈ shown) : d' = d := by
  cases h with
  | same => rfl
  | member member _ _ _ =>
    rw [Kind.makesType_of_makesMember member] at makes
    cases makes
  | type _ hidden _ => exact absurd isShown hidden

/-- A member that is public, or whose owner shows it, is the same in both lists. -/
theorem eq_or_hidden (h : Twin c owned shown d d') (makes : d.kind.makesMember = true) :
    d' = d ∨ (d.isPublicByItself c.publicAnnotation = false ∧ ¬ owned d.memberof) := by
  cases h with
  | same => exact Or.inl rfl
  | member _ hidden free _ => exact Or.inr ⟨hidden, free⟩
  | type type _ _ =>
    rw [Kind.makesType_of_makesMember makes] at type
    cases type

/-- **Expanded twins are twins.** -/
theorem expand (h : Twin c owned shown d d') :
    Twin c owned shown (FunctionTypedef.expand d).1 (FunctionTypedef.expand d').1 := by
  cases h with
  | same => exact Twin.same _
  | member makes hidden free agrees =>
    -- Only typedefs are expanded.
    have kind' : d'.kind.makesMember = true := by
      rw [(SamePlace.ofMember agrees).kind]
      exact makes
    rw [FunctionTypedef.expand_of_ne_typedef (Kind.ne_typedef_of_makesMember makes),
      FunctionTypedef.expand_of_ne_typedef (Kind.ne_typedef_of_makesMember kind')]
    exact Twin.member makes hidden free agrees
  | type makes hidden agrees =>
    obtain ⟨params, returns, comment, expanded⟩ := FunctionTypedef.expand_eq d
    obtain ⟨params', returns', comment', expanded'⟩ := FunctionTypedef.expand_eq d'
    rw [expanded, expanded']
    refine Twin.type makes hidden ?_
    unfold AgreesAsType at agrees ⊢
    rw [agrees]

end Twin

end Doclet

/-! ## Twins in the catalogue -/

/-- Two members at the same place: a public one is the same in both catalogues. -/
structure Member.Twin (m m' : Member) : Prop where
  isPublic : m'.isPublic = m.isPublic
  same : m.isPublic = true → m' = m

theorem Member.Twin.refl (m : Member) : m.Twin m := ⟨rfl, fun _ => rfl⟩

/-- Two entries at the same place, each with its key. An entry that is shown is the same in both
catalogues, up to members of a class that are not public. -/
structure TypeEntry.Twin (shown : Set String) (entry entry' : String × TypeEntry) : Prop where
  key : entry'.1 = entry.1
  isPublic : entry'.2.isPublic = entry.2.isPublic
  isClass : entry'.2.isClass = entry.2.isClass
  doclet : entry.1 ∈ shown → entry'.2.doclet = entry.2.doclet
  ofClass : entry.1 ∈ shown → entry.2.isClass = true →
    List.Forall₂ Member.Twin entry.2.members entry'.2.members
  ofTypedef : entry.1 ∈ shown → entry.2.isClass = false → entry'.2.members = entry.2.members

/-- Two catalogues that differ out of sight at most. -/
structure Catalogue.Twin (shown : Set String) (k k' : Catalogue) : Prop where
  addedTypes : k'.addedTypes = k.addedTypes
  moduleMembers : List.Forall₂ Member.Twin k.moduleMembers k'.moduleMembers
  types : List.Forall₂ (TypeEntry.Twin shown) k.types.entries k'.types.entries

namespace Catalogue

variable {c : Config} {owned : Option String → Prop} {shown : Set String} {k k' : Catalogue}

namespace Twin

theorem keys (h : Twin shown k k') : k'.types.keys = k.types.keys :=
  Lists.map_eq_of_forall₂ (fun _ _ twin => twin.key) h.types

/-- Under a name stand twins or nothing. -/
theorem resolve?_cases (h : Twin shown k k') (name : String) :
    (k.resolve? name = none ∧ k'.resolve? name = none) ∨
    ∃ e e', k.resolve? name = some e ∧ k'.resolve? name = some e' ∧
      TypeEntry.Twin shown (name, e) (name, e') :=
  Lists.lookup_forall₂ (fun _ _ twin => twin.key) h.types name

/-- The same change of both catalogues under a name. -/
theorem modify (h : Twin shown k k') {name : String} {f f' : TypeEntry → TypeEntry}
    (kept : ∀ e e', k.resolve? name = some e → TypeEntry.Twin shown (name, e) (name, e') →
      TypeEntry.Twin shown (name, f e) (name, f' e')) :
    Twin shown { k with types := k.types.modify name f }
      { k' with types := k'.types.modify name f' } where
  addedTypes := h.addedTypes
  moduleMembers := h.moduleMembers
  types := OrderedMap.forall₂_modify (fun _ _ twin => twin.key) h.types kept

end Twin

/-! ## Building twin catalogues -/

/-- The types come in alike. -/
theorem addType_twin {d d' : Doclet} (twins : Doclet.Twin c owned shown d d')
    (makes : d.kind.makesType = true) {state state' : Catalogue × List Finding}
    (h : Twin shown state.1 state'.1 ∧ state'.2 = state.2) :
    Twin shown (addType c state d).1 (addType c state' d').1 ∧
      (addType c state' d').2 = (addType c state d).2 := by
  obtain ⟨catalogues, findings⟩ := h
  have place := twins.samePlace
  have known : state'.1.types.contains d'.longname = state.1.types.contains d.longname := by
    rw [place.longname, Bool.eq_iff_iff, OrderedMap.contains_iff, OrderedMap.contains_iff,
      catalogues.keys]
  by_cases old : state.1.types.contains d.longname = true
  · have old' := known.trans old
    rw [addType_of_known old, addType_of_known old', findings, place.longname]
    exact ⟨catalogues, rfl⟩
  · have new : state.1.types.contains d.longname = false := by simpa using old
    have new' := known.trans new
    rw [addType_of_new new, addType_of_new new']
    refine ⟨⟨catalogues.addedTypes, catalogues.moduleMembers, ?_⟩, findings⟩
    show List.Forall₂ _ (OrderedMap.insert ..).entries (OrderedMap.insert ..).entries
    rw [OrderedMap.entries_insert_of_not_contains new,
      OrderedMap.entries_insert_of_not_contains new']
    refine List.rel_append catalogues.types (List.Forall₂.cons ?_ List.Forall₂.nil)
    refine ⟨place.longname, place.isPublicByItself _, ?_, ?_, ?_, ?_⟩
    · unfold TypeEntry.isClass TypeEntry.ofDoclet
      rw [place.kind]
    · exact fun isShown => twins.eq_of_shown makes isShown
    · intro isShown _
      rw [twins.eq_of_shown makes isShown]
      exact List.forall₂_same.2 fun m _ => Member.Twin.refl m
    · intro isShown _
      rw [twins.eq_of_shown makes isShown]

/-- Under a name stands a typedef. -/
def IsTypedef (k : Catalogue) (name : String) : Prop :=
  ∃ e, k.resolve? name = some e ∧ e.isClass = false

instance (k : Catalogue) (name : String) : Decidable (k.IsTypedef name) :=
  decidable_of_iff ((k.resolve? name).any (!·.isClass) = true) (by
    unfold IsTypedef
    cases k.resolve? name <;> simp)

theorem isTypedef_placeMember {d : Doclet} {name : String} :
    (placeMember c k d).IsTypedef name ↔ k.IsTypedef name := by
  unfold IsTypedef
  rw [resolve?_placeMember]
  cases k.resolve? name <;> simp [TypeEntry.withMembersOf, TypeEntry.isClass]

theorem isTypedef_placeMembers {ds : List Doclet} {name : String} :
    (ds.foldl (placeMember c) k).IsTypedef name ↔ k.IsTypedef name := by
  induction ds generalizing k with
  | nil => rfl
  | cons d rest ih => rw [List.foldl_cons, ih, isTypedef_placeMember]

/-- A member goes to twin owners, or to its module in both catalogues. -/
theorem placeMember_twin (covers : ∀ parent, k.IsTypedef (parent.getD "") → owned parent)
    {d d' : Doclet} (twins : Doclet.Twin c owned shown d d') (makes : d.kind.makesMember = true)
    (h : Twin shown k k') : Twin shown (placeMember c k d) (placeMember c k' d') := by
  have place := twins.samePlace
  have parent : parentName d' = parentName d := by
    unfold parentName
    rw [place.memberof]
  have form : memberForm d' = memberForm d := by
    unfold memberForm
    rw [place.kind]
  -- A member that is public is made of the same record in both lists.
  have made : ∀ owner, (Member.ofDoclet (memberForm d) owner d c).Twin
      (Member.ofDoclet (memberForm d') owner d' c) := by
    intro owner
    refine ⟨place.isPublicByItself _, fun isPublic => ?_⟩
    rcases twins.eq_or_hidden makes with rfl | ⟨hidden, -⟩
    · rfl
    · have shows : d.isPublicByItself c.publicAnnotation = true := isPublic
      rw [hidden] at shows
      cases shows
  rcases h.resolve?_cases (parentName d) with ⟨none, none'⟩ | ⟨e, e', owner, owner', twin⟩
  · rw [← parent] at none'
    rw [placeMember_of_module none, placeMember_of_module none']
    refine ⟨h.addedTypes, ?_, h.types⟩
    exact List.rel_append h.moduleMembers (List.Forall₂.cons (made _) List.Forall₂.nil)
  · rw [← parent] at owner'
    rw [placeMember_of_owner owner, placeMember_of_owner owner', parent]
    have ownerOfMembers : e'.ownerOfMembers = e.ownerOfMembers := by
      unfold TypeEntry.ownerOfMembers
      rw [show e'.isClass = e.isClass from twin.isClass]
    rw [ownerOfMembers]
    refine h.modify fun entry entry' found twin => ?_
    rw [owner, Option.some.injEq] at found
    subst found
    refine ⟨rfl, twin.isPublic, twin.isClass, twin.doclet, ?_, ?_⟩
    · intro isShown isClass
      exact List.rel_append (twin.ofClass isShown isClass)
        (List.Forall₂.cons (made _) List.Forall₂.nil)
    · intro isShown isTypedef
      -- Members that differ have no typedef as their owner.
      have one : d' = d := by
        rcases twins.eq_or_hidden makes with same | ⟨-, free⟩
        · exact same
        · exact absurd (covers d.memberof ⟨e, owner, isTypedef⟩) free
      show entry'.members ++ _ = e.members ++ _
      rw [twin.ofTypedef isShown isTypedef, one]

/-! ## The whole catalogue -/

section Build

variable {ds ds' : List Doclet} (twins : List.Forall₂ (Doclet.Twin c owned shown) ds ds')

include twins

/-- **Twin records make twin catalogues**, with the same findings on repeated definitions, if members
whose owner is a typedef are the same in both lists. -/
theorem build_twin (covers : ∀ parent, (build c ds).1.IsTypedef (parent.getD "") → owned parent) :
    Twin shown (build c ds).1 (build c ds').1 ∧ (build c ds').2 = (build c ds).2 := by
  let typed := (typeDoclets c ds).foldl (addType c) ({}, [])
  let typed' := (typeDoclets c ds').foldl (addType c) ({}, [])
  have types : Twin shown typed.1 typed'.1 ∧ typed'.2 = typed.2 := by
    refine List.rel_foldl (P := fun state state' : Catalogue × List Finding =>
      Twin shown state.1 state'.1 ∧ state'.2 = state.2) ?_ ?_ (forall₂_typeDoclets (fun twin => twin.samePlace) twins)
    · intro state state' h d d' twin
      exact addType_twin twin.1 twin.2 h
    · exact ⟨⟨rfl, List.Forall₂.nil, List.Forall₂.nil⟩, rfl⟩
  have build : ∀ records, (Catalogue.build c records).1 = (configuredTypes c).foldl putAddedType
      ((memberDoclets c records).foldl (placeMember c)
        ((typeDoclets c records).foldl (addType c) ({}, [])).1) := fun _ => rfl
  -- Which names are typedefs is settled before the first member is placed.
  have covers : ∀ parent, typed.1.IsTypedef (parent.getD "") → owned parent := by
    intro parent isTypedef
    refine covers parent ?_
    rw [build, foldl_putAddedType]
    exact isTypedef_placeMembers.2 isTypedef
  have members : Twin shown ((memberDoclets c ds).foldl (placeMember c) typed.1)
      ((memberDoclets c ds').foldl (placeMember c) typed'.1) ∧
      ∀ parent, ((memberDoclets c ds).foldl (placeMember c) typed.1).IsTypedef (parent.getD "") →
        owned parent := by
    refine List.rel_foldl (P := fun k k' => Twin shown k k' ∧
      ∀ parent, k.IsTypedef (parent.getD "") → owned parent) ?_ ⟨types.1, covers⟩
        (forall₂_memberDoclets (fun twin => twin.samePlace) twins)
    intro k k' ⟨h, covers⟩ d d' twin
    refine ⟨placeMember_twin covers twin.1 twin.2 h, fun parent isTypedef => ?_⟩
    exact covers parent (isTypedef_placeMember.1 isTypedef)
  refine ⟨?_, types.2⟩
  rw [build, build, foldl_putAddedType, foldl_putAddedType]
  refine ⟨?_, members.1.moduleMembers, members.1.types⟩
  show (configuredTypes c).foldl _ _ = (configuredTypes c).foldl _ _
  rw [members.1.addedTypes]

end Build

end Catalogue

end Ambient
