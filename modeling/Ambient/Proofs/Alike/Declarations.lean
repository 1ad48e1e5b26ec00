import Ambient.Catalogue
import Ambient.Proofs.Lists
import Ambient.Proofs.Outline.Nesting
/-!
# Declarations that no run can tell apart

Two declarations can differ in their records and still be the same to a reader: they go to the same
place, and they are listed and written in the same way. If they mention the same names as well, no
run can tell them apart.

## Main definitions

* `Declaration.SameText`: declarations that no reader can tell apart.
* `Declaration.Alike`: declarations that no run can tell apart.
* `Declaration.IfPublic`: a relation that is asked of public declarations only.

## Main statements

* `Declaration.collectAll_alike`: they mention the same.
* `Declaration.SameText.classType`, `Declaration.Alike.classType` and so on: types of one record with
  members that are related.
* `Outline.Arranged.render_sameText`: trees of declarations with the same text are written in the
  same way.
-/

namespace Ambient

namespace Declaration

/-- No reader can tell the declarations apart: they go to the same place, and are listed and written
in the same way. -/
structure SameText (c : Config) (d d' : Declaration) : Prop where
  isType : d'.isType = d.isType
  modulePath : d'.modulePath = d.modulePath
  listing : PublicType.ofDeclaration? d' = PublicType.ofDeclaration? d
  render : ∀ level, d'.render c level = d.render c level

/-- No run can tell the declarations apart: they mention the same, too. -/
structure Alike (c : Config) (d d' : Declaration) : Prop extends SameText c d d' where
  collect : ∀ r, d'.collect c r = d.collect c r

/-- Two declarations at the same place: if they are public, they are related. -/
structure IfPublic (R : Declaration → Declaration → Prop) (d d' : Declaration) : Prop where
  isPublic : d'.isPublic = d.isPublic
  related : d.isPublic = true → R d d'

theorem SameText.refl (c : Config) (d : Declaration) : d.SameText c d :=
  ⟨rfl, rfl, rfl, fun _ => rfl⟩

theorem Alike.refl (c : Config) (d : Declaration) : d.Alike c d :=
  ⟨.refl c d, fun _ => rfl⟩

theorem IfPublic.imp {R S : Declaration → Declaration → Prop} {d d' : Declaration}
    (weaker : R d d' → S d d') (h : IfPublic R d d') : IfPublic S d d' :=
  ⟨h.isPublic, fun isPublic => weaker (h.related isPublic)⟩

variable {c : Config} {ds ds' : List Declaration}

/-- They mention the same, one after another. -/
theorem collectAll_alike (alike : List.Forall₂ (Alike c) ds ds') (r : References) :
    ds'.foldl (fun pending d => d.collect c pending) r =
      ds.foldl (fun pending d => d.collect c pending) r := by
  induction alike generalizing r with
  | nil => rfl
  | cons first _ ih => rw [List.foldl_cons, List.foldl_cons, first.collect, ih]

theorem visitAll_alike (alike : List.Forall₂ (Alike c) ds ds') (r : References) :
    visitAll (References.recorder c) ds' r = visitAll (References.recorder c) ds r := by
  induction alike generalizing r with
  | nil => rfl
  | cons first _ ih =>
    have same := first.collect r
    unfold collect at same
    unfold visitAll
    rw [same, ih]

/-- They are written in the same way, one after another. -/
theorem renderAll_sameText (same : List.Forall₂ (SameText c) ds ds') (level : Nat) :
    renderAll c level ds' = renderAll c level ds := by
  induction same with
  | nil => rfl
  | cons first _ ih =>
    unfold renderAll
    rw [first.render, ih]

/-- A visit passes over what is not public. -/
theorem visitPublic_alike (alike : List.Forall₂ (IfPublic (Alike c)) ds ds') (r : References) :
    visitPublic (References.recorder c) ds' r = visitPublic (References.recorder c) ds r := by
  induction alike generalizing r with
  | nil => rfl
  | @cons d d' _ _ first _ ih =>
    unfold visitPublic
    rw [first.isPublic]
    by_cases isPublic : d.isPublic = true
    · have same := (first.related isPublic).collect r
      unfold collect at same
      rw [if_pos isPublic, if_pos isPublic, same, ih]
    · rw [if_neg isPublic, if_neg isPublic, ih]

/-- It is not written, either. -/
theorem renderPublic_sameText (same : List.Forall₂ (IfPublic (SameText c)) ds ds') (level : Nat) :
    renderPublic c level ds' = renderPublic c level ds := by
  induction same with
  | nil => rfl
  | @cons d d' _ _ first _ ih =>
    unfold renderPublic
    rw [first.isPublic]
    by_cases isPublic : d.isPublic = true
    · rw [if_pos isPublic, if_pos isPublic, (first.related isPublic).render, ih]
    · rw [if_neg isPublic, if_neg isPublic, ih]

/-! ## Classes and typedefs -/

section Types

variable (d : Doclet) (isPublic isPublic' : Bool)

/-- Classes of one record have the same text if their public members have. -/
theorem SameText.classType (members : List.Forall₂ (IfPublic (SameText c)) ds ds') :
    (Declaration.classType d isPublic ds).SameText c (.classType d isPublic' ds') := by
  refine ⟨rfl, rfl, rfl, ?_⟩
  intro level
  unfold Declaration.render
  rw [renderPublic_sameText members]

/-- Typedefs of one record have the same text if all their members have. -/
theorem SameText.typedef (members : List.Forall₂ (SameText c) ds ds') :
    (Declaration.typedef d isPublic ds).SameText c (.typedef d isPublic' ds') := by
  refine ⟨rfl, rfl, rfl, ?_⟩
  intro level
  cases members with
  | nil =>
    rw [Declaration.render, Declaration.render]
  | cons first rest =>
    unfold Declaration.render
    rw [first.render, renderAll_sameText rest]

/-- Classes of one record are alike if their public members are. -/
theorem Alike.classType (members : List.Forall₂ (IfPublic (Alike c)) ds ds') :
    (Declaration.classType d isPublic ds).Alike c (.classType d isPublic' ds') where
  toSameText := SameText.classType d isPublic isPublic'
    (members.imp fun _ _ related => related.imp Alike.toSameText)
  collect := by
    intro r
    unfold Declaration.collect Declaration.visit
    rw [visitPublic_alike members]

/-- Typedefs of one record are alike if all their members are. -/
theorem Alike.typedef (members : List.Forall₂ (Alike c) ds ds') :
    (Declaration.typedef d isPublic ds).Alike c (.typedef d isPublic' ds') where
  toSameText := SameText.typedef d isPublic isPublic'
    (members.imp fun _ _ related => related.toSameText)
  collect := by
    intro r
    cases members with
    | nil => rw [Declaration.collect, Declaration.collect, Declaration.visit, Declaration.visit]
    | cons first rest =>
      have same := first.collect (References.recorder c).start
      unfold Declaration.collect at same ⊢
      unfold Declaration.visit
      rw [same, visitAll_alike rest]

end Types

end Declaration

/-! ## Trees -/

namespace Outline

variable {c : Config} {ds ds' : List Declaration} {keys : List String} {t t' : Outline}

section Levels

variable (same : List.Forall₂ (Declaration.SameText c) ds ds') (keys)

include same

theorem typesAt_sameText :
    List.Forall₂ (Declaration.SameText c) (typesAt keys ds) (typesAt keys ds') := by
  have kept := Lists.forall₂_filter (p := fun d => d.isType && d.address == keys)
    (q := fun d => d.isType && d.address == keys) (fun d d' same => by
      unfold Declaration.address
      rw [same.isType, same.modulePath]) same
  exact kept.imp fun _ _ same => same.1

theorem membersAt_sameText :
    List.Forall₂ (Declaration.SameText c) (membersAt keys ds) (membersAt keys ds') := by
  have kept := Lists.forall₂_filter (p := fun d => !d.isType && d.address == keys)
    (q := fun d => !d.isType && d.address == keys) (fun d d' same => by
      unfold Declaration.address
      rw [same.isType, same.modulePath]) same
  exact kept.imp fun _ _ same => same.1

theorem childKeys_sameText : childKeys keys ds' = childKeys keys ds := by
  have next := Lists.filterMap_eq_of_forall₂ (f := fun d => nextKey keys d.address)
    (g := fun d => nextKey keys d.address) (fun d d' same => by
      unfold Declaration.address
      rw [same.modulePath]) same
  unfold childKeys
  rw [next]

end Levels

/-- Modules of the same names are written in the same way if each two of one name are. -/
theorem renderChildren_eq {children children' : List (String × Outline)} (c : Config)
    (indentation : Nat) (names : children'.map Prod.fst = children.map Prod.fst)
    (inside : ∀ key child child', (key, child) ∈ children → (key, child') ∈ children' →
      child'.place = child.place ∧ ∀ level, child'.render c level = child.render c level) :
    renderChildren c indentation children' = renderChildren c indentation children := by
  induction children generalizing children' with
  | nil =>
    obtain rfl : children' = [] := List.map_eq_nil_iff.1 names
    rfl
  | cons entry rest ih =>
    cases children' with
    | nil => cases names
    | cons entry' rest' =>
      obtain ⟨key, child⟩ := entry
      obtain ⟨key', child'⟩ := entry'
      rw [List.map_cons, List.map_cons, List.cons.injEq] at names
      obtain ⟨same, later⟩ := names
      obtain rfl : key' = key := same
      obtain ⟨place, render⟩ := inside key' child child' List.mem_cons_self List.mem_cons_self
      have others := ih later fun key child child' mem mem' =>
        inside key child child' (List.mem_cons_of_mem _ mem) (List.mem_cons_of_mem _ mem')
      unfold renderChildren
      rw [place, render, others]

/-- **Trees of declarations that have the same text are written in the same way.** -/
theorem Arranged.render_sameText (same : List.Forall₂ (Declaration.SameText c) ds ds')
    (h : Arranged ds keys t) (h' : Arranged ds' keys t') (indentation : Nat) :
    t'.render c indentation = t.render c indentation := by
  -- What a level holds is determined by the declarations, so the second tree has the same shape.
  induction h generalizing t' indentation with
  | @level keys children names inside ih =>
    cases h' with
    | @level _ children' names' inside' =>
      have sameNames : children'.map Prod.fst = children.map Prod.fst := by
        rw [names, names', childKeys_sameText keys same]
      have sameChildren := renderChildren_eq c indentation sameNames
        fun key child child' mem mem' => by
          have found := lookup_of_mem names mem
          have found' := lookup_of_mem names' mem'
          refine ⟨?_, fun level => ih key child found (inside' key child' found') level⟩
          rw [(inside key child found).place, (inside' key child' found').place]
      rw [render, render, Declaration.renderAll_sameText (typesAt_sameText keys same),
        Declaration.renderAll_sameText (membersAt_sameText keys same), sameChildren]

end Outline

end Ambient
