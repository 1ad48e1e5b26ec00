import Ambient.Proofs.Surface.Closed
/-!
# The invariant of a closure run

A name can be mentioned again after it was looked up, and types become public in the middle of a
pass. What holds at every moment is that each name that is mentioned on the surface so far is either
pending or settled, and that nothing was made public that a closed set could do without.

## Main definitions

* `Surface.Grounded`: what was made public so far, and why.
* `Surface.Forced`: the moments at which the entries of the configuration are gone through.
* `Surface.Settled`, `Surface.Invariant`: the moments at which names are looked up.

## Main statements

* `Surface.forcePublic_forced`, `Surface.startOf_invariant`: the invariant holds at the start.
* `Surface.lookUp_invariant`: it survives a name that is looked up, pending or not.
* `Surface.runPasses_invariant`: it survives any number of passes.
-/

namespace Ambient.Surface

variable {c : Config} {k : Catalogue} {s : State}

/-! ## What was made public -/

/-- A moment of the closure of `k` at which nothing was published without need, and all that was
published is noted. -/
structure Grounded (c : Config) (k : Catalogue) (s : State) : Prop where
  onlyPublishes : k.OnlyPublishes s.catalogue
  /-- No closed set can do without what is public. -/
  needed : ∀ S, Closed c k S → publicNames s.catalogue ⊆ S
  hoisted_nodup : s.hoisted.Nodup
  mem_hoisted : ∀ name, name ∈ s.hoisted ↔ name ∈ publicNames s.catalogue ∧ name ∉ publicNames k

/-- Publishing a type that every closed set has keeps a moment grounded. -/
theorem Grounded.hoist (h : Grounded c k s) (keyed : k.KeyedByLongname) {name : String}
    {e : TypeEntry} (found : s.catalogue.resolve? name = some e) (hidden : e.isPublic = false)
    (need : ∀ S, Closed c k S → name ∈ S) : Grounded c k (s.hoist name) := by
  have keyedNow := h.onlyPublishes.keyedByLongname keyed
  have published : ∀ other, other ∈ publicNames (s.catalogue.publish name) ↔
      other ∈ publicNames s.catalogue ∨ other = name :=
    fun other => mem_publicNames_publish keyedNow found
  have notYet : name ∉ publicNames s.catalogue := by
    intro mem
    obtain ⟨e', found', shown⟩ := (mem_publicNames keyedNow).1 mem
    cases found.symm.trans found'
    simp [hidden] at shown
  have notOwn : name ∉ publicNames k :=
    fun mem => notYet (publicNames_subset keyed h.onlyPublishes mem)
  refine ⟨h.onlyPublishes.trans (.publish _ name), ?_, ?_, ?_⟩
  · intro S closed other mem
    rcases (published other).1 mem with old | rfl
    · exact h.needed S closed old
    · exact need S closed
  · have fresh : name ∉ s.hoisted := fun mem => notYet ((h.mem_hoisted name).1 mem).1
    show (s.hoisted ++ [name]).Nodup
    rw [List.nodup_append]
    refine ⟨h.hoisted_nodup, by simp, ?_⟩
    rintro other mem new here rfl
    rw [List.mem_singleton] at here
    exact fresh (here ▸ mem)
  · intro other
    show other ∈ s.hoisted ++ [name] ↔ other ∈ publicNames (s.catalogue.publish name) ∧ _
    rw [List.mem_append, List.mem_singleton, h.mem_hoisted, published]
    constructor
    · rintro (⟨now, old⟩ | rfl)
      · exact ⟨Or.inl now, old⟩
      · exact ⟨Or.inr rfl, notOwn⟩
    · rintro ⟨now | rfl, old⟩
      · exact Or.inl ⟨now, old⟩
      · exact Or.inr rfl

/-! ## What the configuration asks for -/

/-- The entries among some that stand for no class or typedef. -/
def unknownEntries (k : Catalogue) (longnames : List String) : List String :=
  longnames.filter fun longname => (k.resolve? longname).isNone

/-- A moment at which the given entries of the configuration were gone through. -/
structure Forced (c : Config) (k : Catalogue) (done : List String) (s : State) : Prop
    extends Grounded c k s where
  published : ∀ name ∈ done, ∀ e, k.resolve? name = some e → name ∈ publicNames s.catalogue
  findings : s.findings = (unknownEntries k done).map unknownEntry
  unresolved : s.unresolved = .empty

/-- One more entry is gone through. -/
theorem Forced.forceOne {done : List String} (h : Forced c k done s) (keyed : k.KeyedByLongname)
    {longname : String} (configured : longname ∈ c.makePublic) :
    Forced c k (done ++ [longname]) (forceOne s longname) := by
  have keyedNow := h.onlyPublishes.keyedByLongname keyed
  unfold Surface.forceOne
  cases found : s.catalogue.resolve? longname with
  | none =>
    have unknown := h.onlyPublishes.resolve?_eq_none_iff.1 found
    refine ⟨⟨h.onlyPublishes, h.needed, h.hoisted_nodup, h.mem_hoisted⟩, ?_, ?_, h.unresolved⟩
    · intro name mem e known
      rcases List.mem_append.1 mem with old | here
      · exact h.published name old e known
      · rw [List.mem_singleton.1 here, unknown] at known
        cases known
    · show s.findings ++ [unknownEntry longname] = _
      simp [unknownEntries, h.findings, unknown]
  | some e =>
    obtain ⟨before, known, raised⟩ := h.onlyPublishes.raised_back found
    have silent : unknownEntries k (done ++ [longname]) = unknownEntries k done := by
      simp [unknownEntries, known]
    by_cases shown : e.isPublic = true
    · simp only [shown, if_true]
      refine ⟨h.toGrounded, ?_, by rw [silent, h.findings], h.unresolved⟩
      intro name mem e' known'
      rcases List.mem_append.1 mem with old | here
      · exact h.published name old e' known'
      · rw [List.mem_singleton.1 here]
        exact (mem_publicNames keyedNow).2 ⟨e, found, shown⟩
    · simp only [shown, Bool.false_eq_true, if_false]
      have need : ∀ S, Closed c k S → longname ∈ S := by
        intro S closed
        have inside := closed.configured longname configured before known
        rwa [keyed longname before known] at inside
      refine ⟨h.toGrounded.hoist keyed found (by simpa using shown) need, ?_, ?_, h.unresolved⟩
      · intro name mem e' known'
        refine (mem_publicNames_publish keyedNow found).2 ?_
        rcases List.mem_append.1 mem with old | here
        · exact Or.inl (h.published name old e' known')
        · exact Or.inr (List.mem_singleton.1 here)
      · rw [silent]
        exact h.findings

/-- All entries of the configuration are gone through. -/
theorem forcePublic_forced (c : Config) (keyed : k.KeyedByLongname) :
    Forced c k c.makePublic (forcePublic c { catalogue := k }) := by
  have start : Forced c k [] { catalogue := k } := by
    refine ⟨⟨.refl k, fun S closed => closed.own, List.nodup_nil, ?_⟩, ?_, rfl, rfl⟩
    · intro name
      simp
    · intro name mem
      cases mem
  -- The entries that are done are an initial segment of all of them.
  have steps : ∀ (rest done : List String) (s : State), done ++ rest = c.makePublic →
      Forced c k done s → Forced c k c.makePublic (rest.foldl Surface.forceOne s) := by
    intro rest
    induction rest with
    | nil =>
      intro done s all h
      rw [← all, List.append_nil]
      exact h
    | cons longname rest ih =>
      intro done s all h
      have configured : longname ∈ c.makePublic := by simp [← all]
      exact ih (done ++ [longname]) _ (by simp [← all]) (h.forceOne keyed configured)
  exact steps c.makePublic [] _ rfl start

/-! ## Looking up names -/

/-- A name needs no further look: it is public, or it is no class or typedef, and then it is added by
the configuration or noted as standing for nothing. -/
def Settled (k : Catalogue) (s : State) (name : String) : Prop :=
  name ∈ publicNames s.catalogue ∨
    (k.resolve? name = none ∧ (name ∈ k.addedTypes.keys ∨ name ∈ s.unresolved.names))

/-- A moment of the closure of `k` at which names are looked up. -/
structure Invariant (c : Config) (k : Catalogue) (s : State) : Prop extends Grounded c k s where
  configured : ∀ name ∈ c.makePublic, ∀ e, k.resolve? name = some e →
    name ∈ publicNames s.catalogue
  pending : ∀ name ∈ s.pending.names, MentionedFrom c k (publicNames s.catalogue) name
  /-- Nothing that is mentioned is forgotten. -/
  covered : ∀ name, MentionedFrom c k (publicNames s.catalogue) name →
    name ∈ s.pending.names ∨ Settled k s name
  unresolved : ∀ name ∈ s.unresolved.names,
    MentionedFrom c k (publicNames s.catalogue) name ∧ k.resolve? name = none ∧
      name ∉ k.addedTypes.keys
  findings : s.findings = (unknownEntries k c.makePublic).map unknownEntry ++
    s.unresolved.names.map undefinedType

/-- The names that are pending at first are the ones that are mentioned by what is written. -/
theorem mem_firstPending {name : String} :
    name ∈ (firstPending c k).names ↔ ∃ d ∈ k.emitted, name ∈ d.recorded c := by
  unfold firstPending Catalogue.emitted
  rw [Declaration.mem_collectAll]
  simp only [References.not_mem_empty, false_or, List.mem_append]
  constructor
  · rintro ⟨d, added | declared, recorded⟩
    · exact ⟨d, Or.inr added, recorded⟩
    · exact ⟨d, Or.inl declared, recorded⟩
  · rintro ⟨d, declared | added, recorded⟩
    · exact ⟨d, Or.inr declared, recorded⟩
    · exact ⟨d, Or.inl added, recorded⟩

/-- The invariant holds when the passes start: all that is mentioned is pending. -/
theorem startOf_invariant (c : Config) (keyed : k.KeyedByLongname) :
    Invariant c k (startOf c k) := by
  have forced := forcePublic_forced c keyed
  have mentioned : ∀ name, name ∈ (startOf c k).pending.names ↔
      MentionedFrom c k (publicNames (startOf c k).catalogue) name := by
    intro name
    exact mem_firstPending.trans (mentionedFrom_iff_emitted keyed forced.onlyPublishes).symm
  refine ⟨⟨forced.onlyPublishes, forced.needed, forced.hoisted_nodup, forced.mem_hoisted⟩,
    forced.published, fun name => (mentioned name).1,
    fun name mem => Or.inl ((mentioned name).2 mem), ?_, ?_⟩
  · intro name mem
    change name ∈ (forcePublic c { catalogue := k }).unresolved.names at mem
    rw [forced.unresolved] at mem
    cases mem
  · show (forcePublic c { catalogue := k }).findings = _ ++
      (forcePublic c { catalogue := k }).unresolved.names.map undefinedType
    rw [forced.unresolved, forced.findings]
    exact (List.append_nil _).symm

theorem mem_addedTypes_keys_iff (h : k.OnlyPublishes s.catalogue) {name : String} :
    s.catalogue.addedTypes.contains name = true ↔ name ∈ k.addedTypes.keys := by
  rw [h.addedTypes]
  exact OrderedMap.contains_iff

namespace Invariant

/-- A settled name need not be pending. -/
theorem remove (h : Invariant c k s) {name : String} (settled : Settled k s name) :
    Invariant c k { s with pending := s.pending.remove name } where
  toGrounded := ⟨h.onlyPublishes, h.needed, h.hoisted_nodup, h.mem_hoisted⟩
  configured := h.configured
  pending := fun other mem => h.pending other (References.mem_remove.1 mem).1
  covered := by
    intro other mentioned
    by_cases here : other = name
    · exact Or.inr (here ▸ settled)
    · rcases h.covered other mentioned with mem | done
      · exact Or.inl (References.mem_remove.2 ⟨mem, here⟩)
      · exact Or.inr done
  unresolved := h.unresolved
  findings := h.findings

/-- A name that is mentioned and stands for nothing is noted. -/
theorem noteUnresolved (h : Invariant c k s) {name : String}
    (mentioned : MentionedFrom c k (publicNames s.catalogue) name)
    (unknown : k.resolve? name = none) (notAdded : name ∉ k.addedTypes.keys) :
    Invariant c k (noteUnresolved { s with pending := s.pending.remove name } name) := by
  unfold Surface.noteUnresolved
  by_cases noted : s.unresolved.contains name = true
  · -- A name that comes up a second time is not noted again.
    simp only [noted, if_true]
    exact h.remove (Or.inr ⟨unknown, Or.inr (References.contains_iff.1 noted)⟩)
  · simp only [noted, Bool.false_eq_true, if_false]
    have new : name ∉ s.unresolved.names := fun mem => noted (References.contains_iff.2 mem)
    refine ⟨⟨h.onlyPublishes, h.needed, h.hoisted_nodup, h.mem_hoisted⟩, h.configured, ?_, ?_,
      ?_, ?_⟩
    · intro other mem
      exact h.pending other (References.mem_remove.1 mem).1
    · intro other mentioned'
      by_cases here : other = name
      · subst here
        exact Or.inr (Or.inr ⟨unknown, Or.inr (References.mem_insert.2 (Or.inr rfl))⟩)
      · rcases h.covered other mentioned' with mem | isPublic | ⟨none, added | old⟩
        · exact Or.inl (References.mem_remove.2 ⟨mem, here⟩)
        · exact Or.inr (Or.inl isPublic)
        · exact Or.inr (Or.inr ⟨none, Or.inl added⟩)
        · exact Or.inr (Or.inr ⟨none, Or.inr (References.mem_insert.2 (Or.inl old))⟩)
    · intro other mem
      rcases References.mem_insert.1 mem with old | rfl
      · exact h.unresolved other old
      · exact ⟨mentioned, unknown, notAdded⟩
    · show s.findings ++ [undefinedType name] =
        _ ++ (s.unresolved.insert name).names.map undefinedType
      rw [h.findings, References.names_insert, if_neg new, List.map_append, List.append_assoc]
      rfl

/-- A type that is mentioned becomes public, and what it mentions is pending. -/
theorem hoist (h : Invariant c k s) (keyed : k.KeyedByLongname) {name : String}
    (mentioned : MentionedFrom c k (publicNames s.catalogue) name) {e : TypeEntry}
    (found : s.catalogue.resolve? name = some e) (hidden : e.isPublic = false) :
    Invariant c k
      { s.hoist name with
        pending := e.publish.toDeclaration.collect c (s.pending.remove name) } := by
  have keyedNow := h.onlyPublishes.keyedByLongname keyed
  obtain ⟨before, known, raised⟩ := h.onlyPublishes.raised_back found
  have recorded : e.publish.toDeclaration.recorded c = before.toDeclaration.recorded c :=
    (raised.trans (.publish e)).recorded_toDeclaration c
  have need : ∀ S, Closed c k S → name ∈ S := by
    intro S closed
    have inside := closed.mentioned before (OrderedMap.mem_values_iff.2 ⟨name, known⟩)
    rw [keyed name before known] at inside
    exact inside (mentioned.mono (h.needed S closed))
  have grounded := h.toGrounded.hoist keyed found hidden need
  have grown : publicNames s.catalogue ⊆ publicNames (s.hoist name).catalogue :=
    fun other mem => (mem_publicNames_publish keyedNow found).2 (Or.inl mem)
  have nowPublic : name ∈ publicNames (s.hoist name).catalogue :=
    (mem_publicNames_publish keyedNow found).2 (Or.inr rfl)
  refine ⟨⟨grounded.onlyPublishes, grounded.needed, grounded.hoisted_nodup, grounded.mem_hoisted⟩,
    ?_, ?_, ?_, ?_, h.findings⟩
  · exact fun other mem e' known' => grown (h.configured other mem e' known')
  · intro other mem
    rcases Declaration.mem_collect.1 mem with old | new
    · exact (h.pending other (References.mem_remove.1 old).1).mono grown
    · rw [recorded] at new
      refine .type (OrderedMap.mem_values_iff.2 ⟨name, known⟩) ?_ new
      rw [keyed name before known]
      exact nowPublic
  · intro other mentioned'
    by_cases here : other = name
    · exact Or.inr (Or.inl (here ▸ nowPublic))
    · -- Any other name was mentioned before, or the type that is published now mentions it.
      have split := mentioned'.of_insert keyed known
        (fun _ mem => (mem_publicNames_publish keyedNow found).1 mem)
      rcases split with old | new
      · rcases h.covered other old with mem | isPublic | noType
        · exact Or.inl (Declaration.mem_collect.2 (Or.inl (References.mem_remove.2 ⟨mem, here⟩)))
        · exact Or.inr (Or.inl (grown isPublic))
        · exact Or.inr (Or.inr noType)
      · exact Or.inl (Declaration.mem_collect.2 (Or.inr (recorded ▸ new)))
  · intro other mem
    obtain ⟨from_, unknown, notAdded⟩ := h.unresolved other mem
    exact ⟨from_.mono grown, unknown, notAdded⟩

end Invariant

/-! ## One name -/

section LookUp

variable {name : String} {e : TypeEntry}

theorem lookUp_of_public (c : Config) (found : s.catalogue.resolve? name = some e)
    (shown : e.isPublic = true) :
    lookUp c s name = { s with pending := s.pending.remove name } := by
  simp [lookUp, found, shown]

theorem lookUp_of_hidden (c : Config) (found : s.catalogue.resolve? name = some e)
    (hidden : e.isPublic = false) :
    lookUp c s name = { s.hoist name with
      pending := e.publish.toDeclaration.collect c (s.pending.remove name) } := by
  simp [lookUp, found, hidden, State.hoist]

theorem lookUp_of_added (c : Config) (unknown : s.catalogue.resolve? name = none)
    (added : s.catalogue.addedTypes.contains name = true) :
    lookUp c s name = { s with pending := s.pending.remove name } := by
  simp [lookUp, unknown, added]

theorem lookUp_of_unknown (c : Config) (unknown : s.catalogue.resolve? name = none)
    (notAdded : s.catalogue.addedTypes.contains name = false) :
    lookUp c s name = noteUnresolved { s with pending := s.pending.remove name } name := by
  simp [lookUp, unknown, notAdded]

/-- Looking up a name makes a hidden type public, or it only takes the name off the pending ones and
leaves the catalogue alone. -/
theorem lookUp_cases (c : Config) (s : State) (name : String) :
    (∃ e, s.catalogue.resolve? name = some e ∧ e.isPublic = false ∧
      lookUp c s name = { s.hoist name with
        pending := e.publish.toDeclaration.collect c (s.pending.remove name) }) ∨
    ((lookUp c s name).catalogue = s.catalogue ∧ (lookUp c s name).hoisted = s.hoisted ∧
      (lookUp c s name).pending = s.pending.remove name) := by
  cases found : s.catalogue.resolve? name with
  | some e =>
    by_cases shown : e.isPublic = true
    · rw [lookUp_of_public c found shown]
      exact Or.inr ⟨rfl, rfl, rfl⟩
    · have hidden : e.isPublic = false := by simpa using shown
      exact Or.inl ⟨e, rfl, hidden, lookUp_of_hidden c found hidden⟩
  | none =>
    by_cases added : s.catalogue.addedTypes.contains name = true
    · rw [lookUp_of_added c found added]
      exact Or.inr ⟨rfl, rfl, rfl⟩
    · rw [lookUp_of_unknown c found (by simpa using added)]
      unfold Surface.noteUnresolved
      split <;> exact Or.inr ⟨rfl, rfl, rfl⟩

/-- Looking up a name only publishes. -/
theorem lookUp_onlyPublishes (c : Config) (s : State) (name : String) :
    s.catalogue.OnlyPublishes (lookUp c s name).catalogue := by
  rcases lookUp_cases c s name with ⟨e, -, -, hoisted⟩ | ⟨same, -, -⟩
  · rw [hoisted]
    exact Catalogue.OnlyPublishes.publish s.catalogue name
  · rw [same]
    exact Catalogue.OnlyPublishes.refl s.catalogue

/-- **The invariant survives a name that is looked up.** The name has to be mentioned on the surface;
whether it is still pending does not matter. -/
theorem lookUp_invariant (h : Invariant c k s) (keyed : k.KeyedByLongname)
    (mentioned : MentionedFrom c k (publicNames s.catalogue) name) :
    Invariant c k (lookUp c s name) := by
  have keyedNow := h.onlyPublishes.keyedByLongname keyed
  cases found : s.catalogue.resolve? name with
  | some e =>
    by_cases shown : e.isPublic = true
    · rw [lookUp_of_public c found shown]
      exact h.remove (Or.inl ((mem_publicNames keyedNow).2 ⟨e, found, shown⟩))
    · have hidden : e.isPublic = false := by simpa using shown
      rw [lookUp_of_hidden c found hidden]
      exact h.hoist keyed mentioned found hidden
  | none =>
    have unknown := h.onlyPublishes.resolve?_eq_none_iff.1 found
    by_cases added : s.catalogue.addedTypes.contains name = true
    · rw [lookUp_of_added c found added]
      have key := (mem_addedTypes_keys_iff h.onlyPublishes).1 added
      exact h.remove (Or.inr ⟨unknown, Or.inl key⟩)
    · rw [lookUp_of_unknown c found (by simpa using added)]
      have notAdded : name ∉ k.addedTypes.keys :=
        fun key => added ((mem_addedTypes_keys_iff h.onlyPublishes).2 key)
      exact h.noteUnresolved mentioned unknown notAdded

end LookUp

/-! ## Passes -/

/-- The invariant survives a list of names that are looked up one by one. -/
theorem lookUpAll_invariant (keyed : k.KeyedByLongname) (names : List String) (h : Invariant c k s)
    (mentioned : ∀ name ∈ names, MentionedFrom c k (publicNames s.catalogue) name) :
    Invariant c k (names.foldl (lookUp c) s) := by
  induction names generalizing s with
  | nil => exact h
  | cons name rest ih =>
    refine ih (lookUp_invariant h keyed (mentioned name List.mem_cons_self)) ?_
    intro other mem
    -- What was mentioned before the first name is looked up is mentioned after it.
    have keyedNow := h.onlyPublishes.keyedByLongname keyed
    exact (mentioned other (List.mem_cons_of_mem name mem)).mono
      (publicNames_subset keyedNow (lookUp_onlyPublishes c s name))

theorem pass_invariant (keyed : k.KeyedByLongname) (h : Invariant c k s) :
    Invariant c k (pass c s) :=
  lookUpAll_invariant keyed s.pending.names h h.pending

/-- The invariant survives any number of passes. -/
theorem runPasses_invariant (keyed : k.KeyedByLongname) (fuel : Nat) (h : Invariant c k s) :
    Invariant c k (runPasses c fuel s).1 := by
  induction fuel generalizing s with
  | zero => exact h
  | succ fuel ih =>
    unfold runPasses
    by_cases done : s.pending.isEmpty = true
    · rw [if_pos done]
      exact h
    · rw [if_neg done]
      exact ih (pass_invariant keyed h)

end Ambient.Surface
