import Ambient.Proofs.Representation
/-!
# What the configuration leaves out

The configuration names longnames of which nothing is to be made. They are asked for when a type is
registered and when a record makes a member. The properties of a typedef become members on a third
way, on which nobody asks.

## Main definitions

* `Catalogue.made`: everything that the records make, members of types included.
* `Catalogue.Registers`: a record of a type is the one that its entry is made of.

## Main statements

* `Catalogue.mem_made`: the three ways on which declarations come in.
* `Catalogue.not_leavesOut_of_types`, `Catalogue.not_leavesOut_of_recordMembers`: two of them keep to
  the configuration.
* `Catalogue.made_and_leavesOut_iff`: what is made although it is left out.
* `Catalogue.made_of_leftOut_property`: it happens.
-/

namespace Ambient

namespace Catalogue

variable {c : Config} {ds : List Doclet}

/-- Everything that the records make: classes and typedefs with their members, and the members of
modules. -/
def made (k : Catalogue) : List Declaration :=
  k.declared.flatMap fun d => d :: d.members

/-- A record of a type is registered: it is not left out, and no earlier one has its longname. -/
def Registers (c : Config) (ds : List Doclet) (t : Doclet) : Prop :=
  ((typeDoclets c ds).find? fun r => r.longname = t.longname) = some t

/-! ## The ways on which declarations come in -/

theorem mem_declared {k : Catalogue} {d : Declaration} :
    d ∈ k.declared ↔ (∃ e ∈ k.types.values, e.toDeclaration = d) ∨
      ∃ m ∈ k.moduleMembers, Declaration.member m = d := by
  have types : (k.classes ++ k.typedefs).Perm k.types.entries := List.filter_append_perm _ _
  unfold declared
  rw [List.mem_append, (types.map _).mem_iff, OrderedMap.values, List.mem_map, List.mem_map]
  refine or_congr ⟨?_, ?_⟩ Iff.rfl
  · rintro ⟨entry, mem, rfl⟩
    exact ⟨entry.2, List.mem_map_of_mem mem, rfl⟩
  · rintro ⟨e, mem, rfl⟩
    obtain ⟨entry, listed, rfl⟩ := List.mem_map.1 mem
    exact ⟨entry, listed, rfl⟩

theorem members_toDeclaration (e : TypeEntry) :
    e.toDeclaration.members = e.members.map Declaration.member := by
  unfold TypeEntry.toDeclaration
  split <;> rfl

theorem fullName_toDeclaration (e : TypeEntry) : e.toDeclaration.fullName = e.doclet.longname := by
  unfold TypeEntry.toDeclaration
  split <;> rfl

/-- What is made is a class or typedef, a member that its properties make, or a member that a record
of its own makes. -/
theorem mem_made {d : Declaration} :
    d ∈ (build c ds).1.made ↔
      (∃ e ∈ (build c ds).1.types.values, e.toDeclaration = d) ∨
      (∃ e ∈ (build c ds).1.types.values, ∃ m ∈ e.ownMembers, Declaration.member m = d) ∨
      ∃ m ∈ (build c ds).1.recordMembers, Declaration.member m = d := by
  have split : ∀ e ∈ (build c ds).1.types.values, e.members = e.ownMembers ++ e.attached := by
    intro e mem
    obtain ⟨name, found⟩ := OrderedMap.mem_values_iff.1 mem
    exact (standsFor_of_resolve? found).1.members
  unfold made
  rw [List.mem_flatMap]
  constructor
  · rintro ⟨r, declared, mem⟩
    rcases mem_declared.1 declared with ⟨e, isEntry, rfl⟩ | ⟨m, ofModule, rfl⟩
    · rcases List.mem_cons.1 mem with rfl | isMember
      · exact Or.inl ⟨e, isEntry, rfl⟩
      · rw [members_toDeclaration, split e isEntry, List.mem_map] at isMember
        obtain ⟨m, ofEntry, rfl⟩ := isMember
        rcases List.mem_append.1 ofEntry with own | attached
        · exact Or.inr (Or.inl ⟨e, isEntry, m, own, rfl⟩)
        · exact Or.inr (Or.inr ⟨m, List.mem_append_left _
            (List.mem_flatMap.2 ⟨e, isEntry, attached⟩), rfl⟩)
    · obtain rfl : d = Declaration.member m := List.mem_singleton.1 mem
      exact Or.inr (Or.inr ⟨m, List.mem_append_right _ ofModule, rfl⟩)
  · have ofEntry : ∀ e ∈ (build c ds).1.types.values, ∀ m ∈ e.members,
        ∃ r ∈ (build c ds).1.declared, Declaration.member m ∈ r :: r.members := by
      intro e isEntry m mem
      refine ⟨e.toDeclaration, mem_declared.2 (Or.inl ⟨e, isEntry, rfl⟩), List.mem_cons_of_mem _ ?_⟩
      rw [members_toDeclaration]
      exact List.mem_map_of_mem mem
    rintro (⟨e, isEntry, rfl⟩ | ⟨e, isEntry, m, own, rfl⟩ | ⟨m, mem, rfl⟩)
    · exact ⟨_, mem_declared.2 (Or.inl ⟨e, isEntry, rfl⟩), List.mem_cons_self⟩
    · exact ofEntry e isEntry m (split e isEntry ▸ List.mem_append_left _ own)
    · rcases List.mem_append.1 mem with ofType | ofModule
      · obtain ⟨e, isEntry, attached⟩ := List.mem_flatMap.1 ofType
        exact ofEntry e isEntry m (split e isEntry ▸ List.mem_append_right _ attached)
      · exact ⟨_, mem_declared.2 (Or.inr ⟨m, ofModule, rfl⟩), List.mem_cons_self⟩

/-! ## The ways that keep to the configuration -/

/-- A class or typedef is registered only if its longname is not left out. -/
theorem not_leavesOut_of_types {e : TypeEntry} (mem : e ∈ (build c ds).1.types.values) :
    c.leavesOut e.doclet.longname = false := by
  obtain ⟨name, found⟩ := OrderedMap.mem_values_iff.1 mem
  obtain ⟨stands, -⟩ := standsFor_of_resolve? found
  have passed := List.find?_some stands.first
  rw [Bool.and_eq_true, Bool.and_eq_true, Bool.not_eq_true'] at passed
  exact passed.1.2

/-- A record makes a member only if its longname is not left out. -/
theorem not_leavesOut_of_recordMembers {m : Member} (mem : m ∈ (build c ds).1.recordMembers) :
    c.leavesOut m.doclet.longname = false := by
  obtain ⟨counts, -⟩ := mem_recordMembers mem
  obtain ⟨-, -, kept, -⟩ := passesOver_eq_false_iff.1 (mem_memberDoclets counts).2.2
  exact kept

/-! ## The way that does not -/

/-- The records of the entries are those that are registered. -/
theorem registers_iff {t : Doclet} :
    Registers c ds t ↔ ∃ e ∈ (build c ds).1.types.values, e.doclet = t := by
  constructor
  · intro registered
    have found := resolve?_build c ds t.longname
    rw [registered, Option.map_some] at found
    exact ⟨_, OrderedMap.mem_values_iff.2 ⟨_, found⟩, rfl⟩
  · rintro ⟨e, mem, rfl⟩
    have found := (keyed_build c ds).resolve? mem
    rw [resolve?_build, Option.map_eq_some_iff] at found
    obtain ⟨t, first, entry⟩ := found
    have ofFirst : e.doclet = t := by
      rw [← entry]
      rfl
    rw [ofFirst] at first ⊢
    exact first

/-- The properties of registered typedefs make what entries have of their own. -/
theorem mem_ownMembers_iff {m : Member} :
    (∃ e ∈ (build c ds).1.types.values, m ∈ e.ownMembers) ↔
      ∃ t, Registers c ds t ∧ t.kind = .typedef ∧
        ∃ p ∈ t.properties, Member.ofProperty? t p = some m := by
  constructor
  · rintro ⟨e, mem, own⟩
    unfold TypeEntry.ownMembers at own
    split at own
    · rename_i isTypedef
      rw [List.mem_filterMap] at own
      exact ⟨e.doclet, registers_iff.2 ⟨e, mem, rfl⟩, isTypedef, own⟩
    · cases own
  · rintro ⟨t, registered, isTypedef, p, isProperty, makes⟩
    obtain ⟨e, mem, rfl⟩ := registers_iff.1 registered
    refine ⟨e, mem, ?_⟩
    unfold TypeEntry.ownMembers
    rw [if_pos isTypedef, List.mem_filterMap]
    exact ⟨p, isProperty, makes⟩

/-- **What is left out and made nevertheless comes from a property of a typedef.** Nothing else that
is made, be it a class, a typedef, a member that a record of its own makes or a member of a module,
has a longname that the configuration leaves out; and of the properties of a registered typedef
every one that makes a member does so, left out or not. -/
theorem made_and_leavesOut_iff (c : Config) (ds : List Doclet) (d : Declaration) :
    d ∈ (build c ds).1.made ∧ c.leavesOut d.fullName = true ↔
      ∃ t, Registers c ds t ∧ t.kind = .typedef ∧ ∃ p ∈ t.properties, ∃ m,
        Member.ofProperty? t p = some m ∧ c.leavesOut m.doclet.longname = true ∧
          d = .member m := by
  constructor
  · rintro ⟨isMade, leftOut⟩
    rcases mem_made.1 isMade with ⟨e, mem, rfl⟩ | ⟨e, mem, m, own, rfl⟩ | ⟨m, mem, rfl⟩
    · rw [fullName_toDeclaration, not_leavesOut_of_types mem] at leftOut
      cases leftOut
    · obtain ⟨t, registered, isTypedef, p, isProperty, makes⟩ := mem_ownMembers_iff.1 ⟨e, mem, own⟩
      exact ⟨t, registered, isTypedef, p, isProperty, m, makes, leftOut, rfl⟩
    · rw [Declaration.fullName, not_leavesOut_of_recordMembers mem] at leftOut
      cases leftOut
  · rintro ⟨t, registered, isTypedef, p, isProperty, m, makes, leftOut, rfl⟩
    obtain ⟨e, mem, own⟩ := mem_ownMembers_iff.2 ⟨t, registered, isTypedef, p, isProperty, makes⟩
    exact ⟨mem_made.2 (Or.inr (Or.inl ⟨e, mem, m, own, rfl⟩)), leftOut⟩

/-- A property of a typedef is left out by its longname, and its member is made all the same. -/
theorem made_of_leftOut_property :
    let property : Param := { name := some "p" }
    let options : Doclet :=
      { name := "T", longname := "T", kind := .typedef, properties := [property] }
    let config : Config := { ignore := ["T#p"] }
    ∃ d ∈ (build config [options]).1.made, config.leavesOut d.fullName = true := by
  decide

end Catalogue

end Ambient
