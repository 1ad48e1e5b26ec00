import Ambient.Surface
import Ambient.Proofs.Catalogue
import Mathlib.Order.Bounds.Defs
/-!
# Closed sets of types

What a closure has to reach, said without a run: a set of longnames is closed if it has what is
public already, what the configuration asks for, and every class and typedef that is mentioned on
the surface that the set itself makes up.

## Main definitions

* `Surface.publicNames`: the longnames of the public classes and typedefs of a catalogue.
* `Surface.MentionedFrom`: a name is mentioned on the surface that a set of longnames makes up.
* `Surface.Closed`: the closed sets.

## Main statements

* `Surface.mentionedFrom_iff_emitted`: at a later moment, what is mentioned from the public names is
  what the declarations mention that are written.
-/

namespace Ambient.Surface

/-- The longnames of the public classes and typedefs. -/
def publicNames (k : Catalogue) : Set String :=
  {name | ∃ e ∈ k.types.values, e.isPublic = true ∧ e.doclet.longname = name}

instance (k : Catalogue) (name : String) : Decidable (name ∈ publicNames k) :=
  inferInstanceAs
    (Decidable (∃ e ∈ k.types.values, e.isPublic = true ∧ e.doclet.longname = name))

/-- A name is mentioned by a class or typedef from a set of longnames, by a public module member, or
by a type that the configuration adds. -/
inductive MentionedFrom (c : Config) (k : Catalogue) (S : Set String) (name : String) : Prop
  | type {e : TypeEntry} (mem : e ∈ k.types.values) (inside : e.doclet.longname ∈ S)
      (recorded : name ∈ e.toDeclaration.recorded c)
  | moduleMember {m : Member} (mem : m ∈ k.moduleMembers) (shown : m.isPublic = true)
      (recorded : name ∈ (Declaration.member m).recorded c)
  | addedType {t : AddedType} (mem : t ∈ k.addedTypes.values)
      (recorded : name ∈ t.toDeclaration.recorded c)

/-- A set of longnames that needs no more names to be a public surface of its own. -/
structure Closed (c : Config) (k : Catalogue) (S : Set String) : Prop where
  /-- What is public already. -/
  own : publicNames k ⊆ S
  /-- What the configuration asks for. -/
  configured : ∀ name ∈ c.makePublic, ∀ e, k.resolve? name = some e → e.doclet.longname ∈ S
  /-- What is mentioned. -/
  mentioned : ∀ e ∈ k.types.values, MentionedFrom c k S e.doclet.longname → e.doclet.longname ∈ S

variable {c : Config} {k : Catalogue}

/-! ## Public names -/

theorem mem_publicNames (keyed : k.KeyedByLongname) {name : String} :
    name ∈ publicNames k ↔ ∃ e, k.resolve? name = some e ∧ e.isPublic = true := by
  constructor
  · rintro ⟨e, mem, shown, rfl⟩
    exact ⟨e, keyed.resolve? mem, shown⟩
  · rintro ⟨e, found, shown⟩
    exact ⟨e, OrderedMap.mem_values_iff.2 ⟨name, found⟩, shown, keyed name e found⟩

/-- What stands under a longname is public exactly if the longname is. -/
theorem isPublic_iff_mem_publicNames (keyed : k.KeyedByLongname) {name : String} {e : TypeEntry}
    (found : k.resolve? name = some e) : e.isPublic = true ↔ name ∈ publicNames k := by
  rw [mem_publicNames keyed]
  constructor
  · intro shown
    exact ⟨e, found, shown⟩
  · rintro ⟨e', found', shown⟩
    cases found.symm.trans found'
    exact shown

/-- Publishing adds one public name. -/
theorem mem_publicNames_publish (keyed : k.KeyedByLongname) {name : String} {e : TypeEntry}
    (found : k.resolve? name = some e) {other : String} :
    other ∈ publicNames (k.publish name) ↔ other ∈ publicNames k ∨ other = name := by
  have published := Catalogue.OnlyPublishes.publish k name
  rw [mem_publicNames (published.keyedByLongname keyed), mem_publicNames keyed]
  unfold Catalogue.resolve? at found
  simp only [Catalogue.resolve?, Catalogue.publish, OrderedMap.get?_modify]
  by_cases here : other = name
  · subst here
    simp [found, TypeEntry.publish]
  · simp [here]

/-- No public name is lost on the way. -/
theorem publicNames_subset (keyed : k.KeyedByLongname) {later : Catalogue}
    (h : k.OnlyPublishes later) : publicNames k ⊆ publicNames later := by
  intro name mem
  obtain ⟨e, found, shown⟩ := (mem_publicNames keyed).1 mem
  obtain ⟨e', found', raised⟩ := h.raised name e found
  exact (mem_publicNames (h.keyedByLongname keyed)).2 ⟨e', found', raised.isPublic shown⟩

/-! ## Mentions from a set -/

/-- A larger set mentions no less. -/
theorem MentionedFrom.mono {S T : Set String} (sub : S ⊆ T) {name : String}
    (h : MentionedFrom c k S name) : MentionedFrom c k T name := by
  cases h with
  | type mem inside recorded => exact .type mem (sub inside) recorded
  | moduleMember mem shown recorded => exact .moduleMember mem shown recorded
  | addedType mem recorded => exact .addedType mem recorded

/-- With one more longname, a name is mentioned if it was before, or by the type of that
longname. -/
theorem MentionedFrom.of_insert (keyed : k.KeyedByLongname) {S T : Set String} {new : String}
    {e : TypeEntry} (found : k.resolve? new = some e)
    (sub : ∀ other ∈ T, other ∈ S ∨ other = new) {name : String} (h : MentionedFrom c k T name) :
    MentionedFrom c k S name ∨ name ∈ e.toDeclaration.recorded c := by
  cases h with
  | @type e' mem inside recorded =>
    rcases sub _ inside with old | here
    · exact Or.inl (.type mem old recorded)
    · have same := keyed.resolve? mem
      rw [here, found] at same
      cases same
      exact Or.inr recorded
  | moduleMember mem shown recorded => exact Or.inl (.moduleMember mem shown recorded)
  | addedType mem recorded => exact Or.inl (.addedType mem recorded)

/-- **What is mentioned from the public names of a later moment is what is mentioned there.** The
types that are written at that moment are the ones of the first moment, flags aside. -/
theorem mentionedFrom_iff_emitted (keyed : k.KeyedByLongname) {later : Catalogue}
    (h : k.OnlyPublishes later) {name : String} :
    MentionedFrom c k (publicNames later) name ↔ ∃ d ∈ later.emitted, name ∈ d.recorded c := by
  constructor
  · intro mentioned
    cases mentioned with
    | @type e mem inside recorded =>
      -- The flags of the entry may have risen since, but it mentions what it mentioned.
      obtain ⟨e', found', raised⟩ := h.raised _ e (keyed.resolve? mem)
      obtain ⟨shownEntry, found, shown⟩ := (mem_publicNames (h.keyedByLongname keyed)).1 inside
      cases found'.symm.trans found
      refine ⟨e'.toDeclaration, Catalogue.mem_emitted.2 (Or.inl ?_), ?_⟩
      · exact ⟨e', OrderedMap.mem_values_iff.2 ⟨_, found'⟩, shown, rfl⟩
      · rw [raised.recorded_toDeclaration]
        exact recorded
    | @moduleMember m mem shown recorded =>
      rw [← h.moduleMembers] at mem
      exact ⟨.member m, Catalogue.mem_emitted.2 (Or.inr (Or.inl ⟨m, mem, shown, rfl⟩)), recorded⟩
    | @addedType t mem recorded =>
      rw [← h.addedTypes] at mem
      exact ⟨t.toDeclaration, Catalogue.mem_emitted.2 (Or.inr (Or.inr ⟨t, mem, rfl⟩)), recorded⟩
  · rintro ⟨d, written, recorded⟩
    rcases Catalogue.mem_emitted.1 written with ⟨e', mem, shown, rfl⟩ | ⟨m, mem, shown, rfl⟩ | added
    · have found' := (h.keyedByLongname keyed).resolve? mem
      obtain ⟨e, found, raised⟩ := h.raised_back found'
      rw [raised.recorded_toDeclaration] at recorded
      refine .type (OrderedMap.mem_values_iff.2 ⟨_, found⟩) ?_ recorded
      exact ⟨e', mem, shown, by rw [raised.doclet]⟩
    · rw [h.moduleMembers] at mem
      exact .moduleMember mem shown recorded
    · obtain ⟨t, mem, rfl⟩ := added
      rw [h.addedTypes] at mem
      exact .addedType mem recorded

end Ambient.Surface
