import Ambient.Proofs.Representation
/-!
# Which record of a longname a member is made of

Records of members come in copies: inherited ones, undocumented ones, ones that are left out. Of all
records with one longname at most one becomes a member. It is the first documented one that is not
passed over. An undocumented one stands in for it only if the longname is documented nowhere, not
even in a record that is passed over itself.

## Main definitions

* `Catalogue.candidates`: the records of members with a longname that are not passed over.
* `Catalogue.survivor?`: the one that becomes a member.

## Main statements

* `Catalogue.find?_keepFirst`: of the records with one longname the first one is kept.
* `Catalogue.find?_memberDoclets`: the record of a longname that a member is made of.
* `Catalogue.survivor?_eq_none_iff`: when no member is made of any of them.
* `Catalogue.recordMembers_filter_longname`: the members of a longname in a whole catalogue.
* `Catalogue.recordMembers_of_passedOver_documentation`: a member that is lost.
-/

namespace Ambient

namespace Catalogue

variable {c : Config} {ds : List Doclet} {name : String}

/-- The records of members with a longname that are not passed over. -/
def candidates (c : Config) (ds : List Doclet) (name : String) : List Doclet :=
  ds.filter fun d => d.kind.makesMember && !passesOver c d && d.longname = name

/-- The record of a longname that becomes a member: the first candidate that is documented. The
first one of all stands in for it only if no record whatever documents the longname. -/
def survivor? (c : Config) (ds : List Doclet) (name : String) : Option Doclet :=
  ((candidates c ds name).find? fun d => !d.undocumented).or
    (if name ∈ documentedMembers ds then none else (candidates c ds name).head?)

/-- Of the records with one longname the first one is kept, if the longname was not met before. -/
theorem find?_keepFirst (ds : List Doclet) (seen : List String) (name : String) :
    (keepFirst seen ds).find? (fun d => d.longname = name) =
      if name ∈ seen then none else ds.find? fun d => d.longname = name := by
  induction ds generalizing seen with
  | nil => rw [keepFirst, List.find?_nil, ite_self]
  | cons d rest ih =>
    rw [keepFirst, List.find?_cons]
    by_cases met : d.longname ∈ seen
    · rw [if_pos (List.contains_iff_mem.2 met), ih]
      by_cases here : d.longname = name
      · rw [if_pos (here ▸ met), if_pos (here ▸ met)]
      · rw [decide_eq_false here]
    · rw [if_neg fun known => met (List.contains_iff_mem.1 known), List.find?_cons]
      by_cases here : d.longname = name
      · rw [if_neg (here ▸ met), decide_eq_true here]
      · rw [decide_eq_false here, ih]
        simp only [List.mem_cons, Ne.symm here, false_or]

theorem mem_documentedMembers :
    name ∈ documentedMembers ds ↔
      ∃ d ∈ ds, d.kind.makesMember = true ∧ d.undocumented = false ∧ d.longname = name := by
  simp [documentedMembers, and_assoc]

/-- A documented candidate documents its longname. -/
theorem undocumented_of_mem_candidates (nowhere : name ∉ documentedMembers ds) {d : Doclet}
    (mem : d ∈ candidates c ds name) : d.undocumented = true := by
  rw [candidates, List.mem_filter, Bool.and_eq_true, Bool.and_eq_true, decide_eq_true_eq] at mem
  obtain ⟨given, ⟨makes, -⟩, longname⟩ := mem
  by_contra documented
  exact nowhere (mem_documentedMembers.2
    ⟨d, given, makes, Bool.eq_false_iff.2 documented, longname⟩)

/-- The record of a longname that a member is made of is its survivor. -/
theorem find?_memberDoclets (c : Config) (ds : List Doclet) (name : String) :
    (memberDoclets c ds).find? (fun d => d.longname = name) = survivor? c ds name := by
  have first : (memberDoclets c ds).find? (fun d => d.longname = name) =
      ds.find? fun d => makesMemberAmong c ds d && decide (d.longname = name) := by
    rw [memberDoclets, find?_keepFirst, if_neg List.not_mem_nil, List.find?_filter]
    simp only [makesMemberAmong, Bool.decide_and, Bool.decide_eq_true]
  rw [first, survivor?]
  by_cases somewhere : name ∈ documentedMembers ds
  · -- Undocumented candidates are dropped.
    rw [if_pos somewhere, Option.or_none, candidates, List.find?_filter]
    congr 1
    funext d
    by_cases here : d.longname = name <;> simp [makesMemberAmong, here, somewhere]
  · -- All candidates are undocumented, and none is dropped for it.
    have noneDocumented : (candidates c ds name).find? (fun d => !d.undocumented) = none := by
      rw [List.find?_eq_none]
      intro d mem
      simp [undocumented_of_mem_candidates somewhere mem]
    rw [noneDocumented, Option.none_or, if_neg somewhere, candidates, List.head?_filter]
    congr 1
    funext d
    by_cases here : d.longname = name <;> simp [makesMemberAmong, here, somewhere]

/-- No record of a longname survives exactly if all are passed over, or all that are not are
undocumented while one that is passed over is not. -/
theorem survivor?_eq_none_iff : survivor? c ds name = none ↔
    (∀ d ∈ candidates c ds name, d.undocumented = true) ∧
      (name ∈ documentedMembers ds ∨ candidates c ds name = []) := by
  rw [survivor?, Option.or_eq_none_iff, List.find?_eq_none]
  refine and_congr (by simp) ?_
  by_cases somewhere : name ∈ documentedMembers ds
  · simp [somewhere]
  · simp [somewhere, List.head?_eq_none_iff]

/-- **Of the records of a longname exactly the survivor becomes a member.** In the whole catalogue
the members with that longname are made of that one record, and there are none if none survives. -/
theorem recordMembers_filter_longname (c : Config) (ds : List Doclet) (name : String) :
    ((build c ds).1.recordMembers.filter fun m => m.doclet.longname = name).map Member.doclet =
      (survivor? c ds name).toList := by
  have perm := (recordMembers_build c ds).filter fun d => d.longname = name
  have one : (memberDoclets c ds).filter (fun d => d.longname = name) =
      ((memberDoclets c ds).find? fun d => d.longname = name).toList :=
    Lists.filter_eq_toList_find? Doclet.longname (keepFirst_distinct _ _).1 name
  rw [one, find?_memberDoclets, List.filter_map] at perm
  cases survives : survivor? c ds name with
  | none =>
    rw [survives] at perm
    exact perm.eq_nil
  | some d =>
    rw [survives] at perm
    exact List.perm_singleton.1 perm

/-- An undocumented record of a member that is not passed over, whose longname is documented by an
inherited copy only: no member is made of either. -/
theorem recordMembers_of_passedOver_documentation :
    let copy : Doclet := { name := "bar", longname := "Foo#bar", inherited := true }
    let own : Doclet := { name := "bar", longname := "Foo#bar", undocumented := true }
    own.kind.makesMember = true ∧ passesOver {} own = false ∧
      (build {} [copy, own]).1.recordMembers = [] := by
  decide

end Catalogue

end Ambient
