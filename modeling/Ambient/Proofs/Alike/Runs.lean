import Mathlib.Data.Set.Basic
import Ambient.Proofs.Alike.Declarations
import Ambient.Proofs.Building
import Ambient.Proofs.Surface.Closure
/-!
# Runs that give the same outcome

Two catalogues can hold different records and still go through the same run: the same names are
pending at any moment, and the same types become public. It is enough that the declarations are alike
that a run looks at. Those are the ones that are public in the end, since whatever it looks at is
public when it is looked at.

## Main definitions

* `TypeEntry.Alike`, `Catalogue.Alike`: catalogues whose visible part is alike.
* `Surface.State.Alike`: moments of two closures over such catalogues.

## Main statements

* `Catalogue.forall₂_emitted`: related catalogues write related declarations.
* `Surface.run_alike`: the closures of the catalogues go through the same passes.
* `generate_of_sameText`, `generate_of_alike`: the outcome of two runs.

## Design notes

Which types become public is known only after the closure of one of the catalogues. Here it is given
as a set of longnames: types with other longnames may differ in any way.
-/

namespace Ambient

/-- Two entries at the same place, each with its key. If they are shown, they are alike once they are
public. -/
structure TypeEntry.Alike (c : Config) (shown : Set String) (entry entry' : String × TypeEntry) :
    Prop where
  key : entry'.1 = entry.1
  isPublic : entry'.2.isPublic = entry.2.isPublic
  isClass : entry'.2.isClass = entry.2.isClass
  published : entry.1 ∈ shown →
    entry.2.publish.toDeclaration.Alike c entry'.2.publish.toDeclaration

/-- Two catalogues that no run can tell apart if it publishes only types that are shown. -/
structure Catalogue.Alike (c : Config) (shown : Set String) (k k' : Catalogue) : Prop where
  addedTypes : k'.addedTypes = k.addedTypes
  moduleMembers : List.Forall₂ (Declaration.IfPublic (Declaration.Alike c))
    (k.moduleMembers.map .member) (k'.moduleMembers.map .member)
  types : List.Forall₂ (TypeEntry.Alike c shown) k.types.entries k'.types.entries

namespace TypeEntry

/-- A public entry stays as it is. -/
theorem publish_of_isPublic {e : TypeEntry} (isPublic : e.isPublic = true) : e.publish = e := by
  unfold publish
  rw [← isPublic]

namespace Alike

variable {c : Config} {shown : Set String}

/-- Public entries that are shown make declarations that are alike. -/
theorem toDeclaration {entry entry' : String × TypeEntry} (h : Alike c shown entry entry')
    (isShown : entry.1 ∈ shown) (isPublic : entry.2.isPublic = true) :
    entry.2.toDeclaration.Alike c entry'.2.toDeclaration := by
  have alike := h.published isShown
  rw [publish_of_isPublic isPublic, publish_of_isPublic (h.isPublic.trans isPublic)] at alike
  exact alike

theorem publish {name : String} {e e' : TypeEntry} (h : Alike c shown (name, e) (name, e')) :
    Alike c shown (name, e.publish) (name, e'.publish) :=
  ⟨rfl, rfl, h.isClass, h.published⟩

end Alike

end TypeEntry

/-! ## What is written -/

namespace Catalogue

section Related

variable {R : Declaration → Declaration → Prop} {k k' : Catalogue}

/-- Related entries and module members make related declarations. -/
theorem forall₂_declared
    (types : List.Forall₂ (fun entry entry' => entry'.2.isClass = entry.2.isClass ∧
      R entry.2.toDeclaration entry'.2.toDeclaration) k.types.entries k'.types.entries)
    (members : List.Forall₂ R (k.moduleMembers.map .member) (k'.moduleMembers.map .member)) :
    List.Forall₂ R k.declared k'.declared := by
  have classes := Lists.forall₂_filter (p := fun entry : String × TypeEntry => entry.2.isClass)
    (q := fun entry => entry.2.isClass) (fun _ _ related => related.1) types
  have typedefs := Lists.forall₂_filter (p := fun entry : String × TypeEntry => !entry.2.isClass)
    (q := fun entry => !entry.2.isClass) (fun _ _ related => by rw [related.1]) types
  have both := List.rel_append (classes.imp fun _ _ related => related.1.2)
    (typedefs.imp fun _ _ related => related.1.2)
  exact List.rel_append (List.forall₂_map_left_iff.2 (List.forall₂_map_right_iff.2 both)) members

/-- If related declarations are public in both catalogues or in none, related ones are written. -/
theorem forall₂_emitted (refl : ∀ d, R d d) (addedTypes : k'.addedTypes = k.addedTypes)
    (declared : List.Forall₂ (Declaration.IfPublic R) k.declared k'.declared) :
    List.Forall₂ R k.emitted k'.emitted := by
  have shown := Lists.forall₂_filter (fun _ _ related => related.isPublic) declared
  have added : List.Forall₂ R k.addedDeclarations k'.addedDeclarations := by
    unfold addedDeclarations
    rw [addedTypes]
    exact List.forall₂_same.2 fun d _ => refl d
  exact List.rel_append (shown.imp fun _ _ ⟨related, isPublic⟩ => related.related isPublic) added

end Related

end Catalogue

namespace Catalogue.Alike

variable {c : Config} {shown : Set String} {k k' : Catalogue}

/-- Under a name stand entries that are alike, or nothing. -/
theorem resolve?_cases (h : Alike c shown k k') (name : String) :
    (k.resolve? name = none ∧ k'.resolve? name = none) ∨
    ∃ e e', k.resolve? name = some e ∧ k'.resolve? name = some e' ∧
      TypeEntry.Alike c shown (name, e) (name, e') :=
  Lists.lookup_forall₂ (fun _ _ alike => alike.key) h.types name

/-- The same is declared, and what is public of it is alike, if all public types are shown. -/
theorem declared (h : Alike c shown k k') (keyed : k.KeyedByLongname)
    (visible : Surface.publicNames k ⊆ shown) :
    List.Forall₂ (Declaration.IfPublic (Declaration.Alike c)) k.declared k'.declared := by
  have entries := (List.forall₂_and_left k.types.entries _).2 ⟨fun _ mem => mem, h.types⟩
  refine forall₂_declared (entries.imp ?_) h.moduleMembers
  rintro ⟨name, e⟩ ⟨name', e'⟩ ⟨mem, alike⟩
  refine ⟨alike.isClass, ?_, ?_⟩
  · rw [TypeEntry.isPublic_toDeclaration, TypeEntry.isPublic_toDeclaration]
    exact alike.isPublic
  · intro isPublic
    rw [TypeEntry.isPublic_toDeclaration] at isPublic
    refine alike.toDeclaration (visible ?_) isPublic
    exact (Surface.mem_publicNames keyed).2 ⟨e, OrderedMap.get?_eq_some_iff.2 mem, isPublic⟩

theorem addedDeclarations (h : Alike c shown k k') :
    k'.addedDeclarations = k.addedDeclarations := by
  unfold Catalogue.addedDeclarations
  rw [h.addedTypes]

/-- **What is written is alike**, if all public types are shown. -/
theorem emitted (h : Alike c shown k k') (keyed : k.KeyedByLongname)
    (visible : Surface.publicNames k ⊆ shown) :
    List.Forall₂ (Declaration.Alike c) k.emitted k'.emitted :=
  forall₂_emitted (Declaration.Alike.refl c) h.addedTypes (h.declared keyed visible)

/-- The same are classes. -/
theorem isClass_values (h : Alike c shown k k') :
    k'.types.values.map TypeEntry.isClass = k.types.values.map TypeEntry.isClass := by
  unfold OrderedMap.values
  rw [List.map_map, List.map_map]
  exact Lists.map_eq_of_forall₂ (fun _ _ alike => alike.isClass) h.types

theorem length_classes (h : Alike c shown k k') : k'.classes.length = k.classes.length := by
  rw [length_classes_eq, length_classes_eq, h.isClass_values]

theorem length_typedefs (h : Alike c shown k k') : k'.typedefs.length = k.typedefs.length := by
  rw [length_typedefs_eq, length_typedefs_eq, h.isClass_values]

theorem length_moduleMembers (h : Alike c shown k k') :
    k'.moduleMembers.length = k.moduleMembers.length := by
  have same := h.moduleMembers.length_eq
  rw [List.length_map, List.length_map] at same
  exact same.symm

/-- The same type becomes public in both. -/
theorem publish (h : Alike c shown k k') (name : String) :
    Alike c shown (k.publish name) (k'.publish name) :=
  ⟨h.addedTypes, h.moduleMembers,
    OrderedMap.forall₂_modify (fun _ _ alike => alike.key) h.types fun _ _ _ => .publish⟩

end Catalogue.Alike

/-! ## Closing -/

namespace Surface

variable {c : Config} {shown : Set String} {s s' : State}

/-- Moments of two closures that no run can tell apart. -/
structure State.Alike (c : Config) (shown : Set String) (s s' : State) : Prop where
  catalogue : Catalogue.Alike c shown s.catalogue s'.catalogue
  pending : s'.pending = s.pending
  hoisted : s'.hoisted = s.hoisted
  unresolved : s'.unresolved = s.unresolved
  findings : s'.findings = s.findings

/-- The same entry of the configuration is gone through. -/
theorem forceOne_alike (h : State.Alike c shown s s') (name : String) :
    State.Alike c shown (forceOne s name) (forceOne s' name) := by
  unfold forceOne
  rcases h.catalogue.resolve?_cases name with ⟨none, none'⟩ | ⟨e, e', found, found', alike⟩
  · rw [none, none']
    refine ⟨h.catalogue, h.pending, h.hoisted, h.unresolved, ?_⟩
    show s'.findings ++ _ = s.findings ++ _
    rw [h.findings]
  · have flag : e'.isPublic = e.isPublic := alike.isPublic
    rw [found, found']
    simp only [flag]
    by_cases isPublic : e.isPublic = true
    · rw [if_pos isPublic, if_pos isPublic]
      exact h
    · rw [if_neg isPublic, if_neg isPublic]
      refine ⟨h.catalogue.publish name, h.pending, ?_, h.unresolved, h.findings⟩
      show s'.hoisted ++ _ = s.hoisted ++ _
      rw [h.hoisted]

theorem forcePublic_alike (h : State.Alike c shown s s') :
    State.Alike c shown (forcePublic c s) (forcePublic c s') := by
  unfold forcePublic
  generalize c.makePublic = names
  induction names generalizing s s' with
  | nil => exact h
  | cons name rest ih => exact ih (forceOne_alike h name)

theorem noteUnresolved_alike (h : State.Alike c shown s s') (name : String) :
    State.Alike c shown (noteUnresolved s name) (noteUnresolved s' name) := by
  unfold noteUnresolved
  rw [h.unresolved]
  by_cases noted : s.unresolved.contains name = true
  · rw [if_pos noted, if_pos noted]
    exact h
  · rw [if_neg noted, if_neg noted]
    refine ⟨h.catalogue, h.pending, h.hoisted, rfl, ?_⟩
    show s'.findings ++ _ = s.findings ++ _
    rw [h.findings]

/-- **Looking up the same name** keeps them alike, if every type that is public then is shown. -/
theorem lookUp_alike (h : State.Alike c shown s s') (keyed : s.catalogue.KeyedByLongname)
    {name : String} (visible : publicNames (lookUp c s name).catalogue ⊆ shown) :
    State.Alike c shown (lookUp c s name) (lookUp c s' name) := by
  have dropped : s'.pending.remove name = s.pending.remove name := by rw [h.pending]
  have removed : State.Alike c shown { s with pending := s.pending.remove name }
      { s' with pending := s'.pending.remove name } :=
    ⟨h.catalogue, dropped, h.hoisted, h.unresolved, h.findings⟩
  rcases h.catalogue.resolve?_cases name with ⟨none, none'⟩ | ⟨e, e', found, found', alike⟩
  · have sameAdded : s'.catalogue.addedTypes.contains name =
        s.catalogue.addedTypes.contains name := by rw [h.catalogue.addedTypes]
    by_cases added : s.catalogue.addedTypes.contains name = true
    · rw [lookUp_of_added c none added, lookUp_of_added c none' (sameAdded.trans added)]
      exact removed
    · have notAdded : s.catalogue.addedTypes.contains name = false := by simpa using added
      rw [lookUp_of_unknown c none notAdded,
        lookUp_of_unknown c none' (sameAdded.trans notAdded)]
      exact noteUnresolved_alike removed name
  · have flag : e'.isPublic = e.isPublic := alike.isPublic
    by_cases isPublic : e.isPublic = true
    · rw [lookUp_of_public c found isPublic, lookUp_of_public c found' (flag.trans isPublic)]
      exact removed
    · have hidden : e.isPublic = false := by simpa using isPublic
      -- The type becomes public now, so it is shown, and both entries mention the same.
      have isShown : name ∈ shown := by
        refine visible ?_
        rw [lookUp_of_hidden c found hidden]
        exact (mem_publicNames_publish keyed found).2 (Or.inr rfl)
      rw [lookUp_of_hidden c found hidden, lookUp_of_hidden c found' (flag.trans hidden)]
      refine ⟨h.catalogue.publish name, ?_, ?_, h.unresolved, h.findings⟩
      · show e'.publish.toDeclaration.collect c _ = e.publish.toDeclaration.collect c _
        rw [dropped]
        exact (alike.published isShown).collect _
      · show s'.hoisted ++ _ = s.hoisted ++ _
        rw [h.hoisted]

theorem lookUpAll_onlyPublishes (c : Config) (names : List String) (s : State) :
    s.catalogue.OnlyPublishes (names.foldl (lookUp c) s).catalogue := by
  induction names generalizing s with
  | nil => exact Catalogue.OnlyPublishes.refl s.catalogue
  | cons name rest ih => exact (lookUp_onlyPublishes c s name).trans (ih (lookUp c s name))

theorem runPasses_onlyPublishes (c : Config) (fuel : Nat) (s : State) :
    s.catalogue.OnlyPublishes (runPasses c fuel s).1.catalogue := by
  induction fuel generalizing s with
  | zero => exact Catalogue.OnlyPublishes.refl s.catalogue
  | succ fuel ih =>
    unfold runPasses
    by_cases done : s.pending.isEmpty = true
    · rw [if_pos done]
      exact Catalogue.OnlyPublishes.refl s.catalogue
    · rw [if_neg done]
      exact (lookUpAll_onlyPublishes c s.pending.names s).trans (ih (pass c s))

theorem lookUpAll_alike (names : List String) (h : State.Alike c shown s s')
    (keyed : s.catalogue.KeyedByLongname)
    (visible : publicNames (names.foldl (lookUp c) s).catalogue ⊆ shown) :
    State.Alike c shown (names.foldl (lookUp c) s) (names.foldl (lookUp c) s') := by
  induction names generalizing s s' with
  | nil => exact h
  | cons name rest ih =>
    have keyedNext := (lookUp_onlyPublishes c s name).keyedByLongname keyed
    -- What is public after this name is so after the others, too, hence shown.
    have later := publicNames_subset keyedNext (lookUpAll_onlyPublishes c rest (lookUp c s name))
    exact ih (lookUp_alike h keyed fun other mem => visible (later mem)) keyedNext visible

/-- Any number of passes keeps them alike, and there are as many of them, if every type that is public in
the end is shown. -/
theorem runPasses_alike (fuel : Nat) (h : State.Alike c shown s s')
    (keyed : s.catalogue.KeyedByLongname)
    (visible : publicNames (runPasses c fuel s).1.catalogue ⊆ shown) :
    State.Alike c shown (runPasses c fuel s).1 (runPasses c fuel s').1 ∧
      (runPasses c fuel s').2 = (runPasses c fuel s).2 := by
  -- Both runs stop at the same pass since the same names are pending; `visible` is about the end of
  -- the first run, and public types stay public, so it holds at every moment on the way.
  induction fuel generalizing s s' with
  | zero => exact ⟨h, rfl⟩
  | succ fuel ih =>
    unfold runPasses at visible ⊢
    rw [h.pending]
    by_cases done : s.pending.isEmpty = true
    · rw [if_pos done, if_pos done]
      exact ⟨h, rfl⟩
    · rw [if_neg done] at visible
      rw [if_neg done, if_neg done]
      have keyedNext : (pass c s).catalogue.KeyedByLongname :=
        (lookUpAll_onlyPublishes c s.pending.names s).keyedByLongname keyed
      have later := publicNames_subset keyedNext (runPasses_onlyPublishes c fuel (pass c s))
      have next : State.Alike c shown (pass c s) (pass c s') := by
        unfold pass
        rw [h.pending]
        exact lookUpAll_alike s.pending.names h keyed fun other mem => visible (later mem)
      obtain ⟨alike, passes⟩ := ih next keyedNext visible
      exact ⟨alike, congrArg (· + 1) passes⟩

/-! ### The whole closure -/

variable {k k' : Catalogue}

theorem firstPending_alike (h : Catalogue.Alike c shown k k') (keyed : k.KeyedByLongname)
    (visible : publicNames k ⊆ shown) : firstPending c k' = firstPending c k := by
  have shown := Lists.forall₂_filter (fun _ _ alike => alike.isPublic) (h.declared keyed visible)
  have added : List.Forall₂ (Declaration.Alike c) k.addedDeclarations k.addedDeclarations :=
    List.forall₂_same.2 fun d _ => Declaration.Alike.refl c d
  unfold firstPending
  rw [h.addedDeclarations]
  exact Declaration.collectAll_alike (List.rel_append added
    (shown.imp fun _ _ ⟨alike, isPublic⟩ => alike.related isPublic)) _

theorem hiddenCount_alike (h : Catalogue.Alike c shown k k') : hiddenCount k' = hiddenCount k := by
  have flags : k'.types.values.map TypeEntry.isPublic = k.types.values.map TypeEntry.isPublic := by
    unfold OrderedMap.values
    rw [List.map_map, List.map_map]
    exact Lists.map_eq_of_forall₂ (fun _ _ alike => alike.isPublic) h.types
  have counted : ∀ k : Catalogue,
      hiddenCount k = (k.types.values.map TypeEntry.isPublic).countP (! ·) := by
    intro k
    rw [List.countP_map]
    rfl
  rw [counted, counted, flags]

/-- **The closures of catalogues that are alike go through the same passes**, if every type that is
public in the end is shown. -/
theorem run_alike (h : Catalogue.Alike c shown k k') (keyed : k.KeyedByLongname)
    (visible : publicNames (run c k).1.catalogue ⊆ shown) :
    State.Alike c shown (run c k).1 (run c k').1 ∧ (run c k').2 = (run c k).2 := by
  have forced : State.Alike c shown (forcePublic c { catalogue := k })
      (forcePublic c { catalogue := k' }) := forcePublic_alike ⟨h, rfl, rfl, rfl, rfl⟩
  have keyedStart : (startOf c k).catalogue.KeyedByLongname :=
    (forcePublic_forced c keyed).onlyPublishes.keyedByLongname keyed
  have later := publicNames_subset keyedStart
    (runPasses_onlyPublishes c (hiddenCount (startOf c k).catalogue + 1) (startOf c k))
  have pending := firstPending_alike (c := c) forced.catalogue keyedStart
    fun name mem => visible (later mem)
  have start : State.Alike c shown (startOf c k) (startOf c k') :=
    ⟨forced.catalogue, pending, forced.hoisted, forced.unresolved, forced.findings⟩
  -- The number of passes that are allowed is the same, so the runs can be compared pass by pass.
  have fuel : hiddenCount (startOf c k').catalogue = hiddenCount (startOf c k).catalogue :=
    hiddenCount_alike start.catalogue
  unfold run
  simp only [fuel]
  exact runPasses_alike _ start keyedStart visible

end Surface

/-! ## The outcome -/

section Outcome

variable {c : Config} {ds ds' : List Doclet}
  (same : List.Forall₂ (Declaration.SameText c) (closedCatalogue c ds).emitted
    (closedCatalogue c ds').emitted)

include same

/-- The pages of declarations with the same text are the same. -/
theorem page_of_sameText :
    (Outline.ofDeclarations (closedCatalogue c ds').emitted).render c 0 =
      (Outline.ofDeclarations (closedCatalogue c ds).emitted).render c 0 :=
  (Outline.arranged_ofDeclarations _).render_sameText same (Outline.arranged_ofDeclarations _) 0

/-- **If what is written has the same text, the same is written**, and the same types are listed. -/
theorem generate_of_sameText (earlier earlier' : List Finding) :
    (generate c ds' earlier').declarations = (generate c ds earlier).declarations ∧
      (generate c ds' earlier').publicTypes = (generate c ds earlier).publicTypes := by
  constructor
  · rw [declarations_generate, declarations_generate, page_of_sameText same]
  · rw [publicTypes_generate, publicTypes_generate]
    exact Lists.filterMap_eq_of_forall₂ (fun _ _ same => same.listing) same

end Outcome

/-- **Runs over catalogues that are alike have the same outcome**, if the types that are shown are
those that are public after the first run. -/
theorem generate_of_alike (c : Config) {ds ds' : List Doclet} {earlier earlier' : List Finding}
    (built : Catalogue.Alike c (Surface.publicNames (closedCatalogue c ds))
      (Catalogue.build c ds).1 (Catalogue.build c ds').1)
    (repeated : (Catalogue.build c ds').2 = (Catalogue.build c ds).2)
    (warned : Finding.countWarnings earlier' = Finding.countWarnings earlier) :
    let output := generate c ds earlier
    let output' := generate c ds' earlier'
    output'.declarations = output.declarations ∧ output'.publicTypes = output.publicTypes ∧
      output'.unresolved = output.unresolved ∧ output'.stats = output.stats := by
  intro output output'
  have keyed := Catalogue.keyed_build c ds
  have keyedNow : (closedCatalogue c ds).KeyedByLongname :=
    (Surface.run_invariant c keyed).onlyPublishes.keyedByLongname keyed
  obtain ⟨final, passes⟩ := Surface.run_alike built keyed Set.Subset.rfl
  have closed : Catalogue.Alike c _ (closedCatalogue c ds) (closedCatalogue c ds') := final.catalogue
  have same := (closed.emitted keyedNow Set.Subset.rfl).imp fun _ _ => Declaration.Alike.toSameText
  obtain ⟨declarations, publicTypes⟩ := generate_of_sameText same earlier earlier'
  have warnings : Finding.countWarnings output'.findings =
      Finding.countWarnings output.findings := by
    rw [findings_generate, findings_generate, repeated, final.findings, page_of_sameText same]
    simp only [Finding.countWarnings_append, warned]
  refine ⟨declarations, publicTypes, ?_, ?_⟩
  · rw [unresolved_generate, unresolved_generate, final.unresolved]
  · rw [publicTypes_generate, publicTypes_generate] at publicTypes
    rw [stats_generate, stats_generate, closed.length_classes, closed.length_typedefs,
      closed.length_moduleMembers, closed.addedTypes, publicTypes, final.hoisted,
      final.unresolved, passes, warnings]

end Ambient
