import Ambient.Proofs.Building
import Ambient.Proofs.Lists
/-!
# Records that go to the same place

Where a record goes in a catalogue is a matter of a few of its fields: its kind, its names, its
owner, and whether it is a copy. Lists of records that agree in them make types and members at the
same positions.

## Main definitions

* `Doclet.SamePlace`: two records agree in what decides where they go.

## Main statements

* `Catalogue.forall₂_typeDoclets`, `Catalogue.forall₂_memberDoclets`: related records make types and
  members at the same positions.
-/

namespace Ambient

namespace Doclet

namespace Kind

variable {kind : Kind}

theorem ne_typedef_of_makesMember (makes : kind.makesMember = true) : kind ≠ .typedef := by
  rintro rfl
  cases makes

theorem makesType_of_makesMember (makes : kind.makesMember = true) : kind.makesType = false := by
  cases kind <;> first | rfl | cases makes

end Kind

/-- Two records are treated alike when the catalogue is built: as far as that is concerned, what they
make and where it goes is the same. -/
structure SamePlace (d d' : Doclet) : Prop where
  kind : d'.kind = d.kind
  longname : d'.longname = d.longname
  memberof : d'.memberof = d.memberof
  scope : d'.scope = d.scope
  undocumented : d'.undocumented = d.undocumented
  inherited : d'.inherited = d.inherited
  isPublicByItself : ∀ annotation, d'.isPublicByItself annotation = d.isPublicByItself annotation

namespace SamePlace

variable {d d' : Doclet}

theorem refl (d : Doclet) : SamePlace d d := ⟨rfl, rfl, rfl, rfl, rfl, rfl, fun _ => rfl⟩

end SamePlace

end Doclet

namespace Catalogue

variable {c : Config} {R : Doclet → Doclet → Prop}

theorem forall₂_keepFirst (place : ∀ {d d'}, R d d' → d.SamePlace d') {ds ds' : List Doclet}
    (related : List.Forall₂ R ds ds') (seen : List String) :
    List.Forall₂ R (keepFirst seen ds) (keepFirst seen ds') := by
  induction related generalizing seen with
  | nil => exact List.Forall₂.nil
  | @cons d d' rest rest' first _ ih =>
    unfold keepFirst
    rw [(place first).longname]
    by_cases met : seen.contains d.longname = true
    · rw [if_pos met, if_pos met]
      exact ih seen
    · rw [if_neg met, if_neg met]
      exact List.Forall₂.cons first (ih _)

section Lists

variable (place : ∀ {d d'}, R d d' → d.SamePlace d') {ds ds' : List Doclet}
  (related : List.Forall₂ R ds ds')

include place related

/-- Related records make types at the same positions. -/
theorem forall₂_typeDoclets :
    List.Forall₂ (fun d d' => R d d' ∧ d.kind.makesType = true)
      (typeDoclets c ds) (typeDoclets c ds') := by
  have kept := Lists.forall₂_filter (p := fun d => d.kind.makesType && !c.leavesOut d.longname)
    (q := fun d => d.kind.makesType && !c.leavesOut d.longname) (fun d d' pair => by
      rw [(place pair).kind, (place pair).longname]) related
  refine kept.imp fun d d' ⟨pair, makes⟩ => ⟨pair, ?_⟩
  rw [Bool.and_eq_true] at makes
  exact makes.1

theorem documentedMembers_eq : documentedMembers ds' = documentedMembers ds := by
  have kept := Lists.forall₂_filter (p := fun d => d.kind.makesMember && !d.undocumented)
    (q := fun d => d.kind.makesMember && !d.undocumented) (fun d d' pair => by
      rw [(place pair).kind, (place pair).undocumented]) related
  exact Lists.map_eq_of_forall₂ (fun _ _ pair => (place pair.1).longname) kept

/-- Related records make members at the same positions. -/
theorem forall₂_memberDoclets :
    List.Forall₂ (fun d d' => R d d' ∧ d.kind.makesMember = true)
      (memberDoclets c ds) (memberDoclets c ds') := by
  have kept := Lists.forall₂_filter (p := makesMemberAmong c ds) (q := makesMemberAmong c ds')
    (fun d d' pair => by
      have same := place pair
      unfold makesMemberAmong passesOver
      rw [documentedMembers_eq place related, same.kind, same.longname, same.memberof, same.scope,
        same.undocumented, same.inherited]) related
  refine forall₂_keepFirst (fun pair => place pair.1) (kept.imp fun d d' ⟨pair, makes⟩ => ?_) []
  simp only [makesMemberAmong, Bool.and_eq_true] at makes
  exact ⟨pair, makes.1.1⟩

end Lists

end Catalogue

end Ambient
