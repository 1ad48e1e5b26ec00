import Ambient.Proofs.Surface.Closure
import Mathlib.Logic.Function.Iterate
/-!
# How many passes there are

The names that are pending do not get fewer from one pass to the next: a type that becomes public
may put back names that were looked up already. What does get smaller is the number of hidden types,
by one for each longname that is noted as made public. So the passes are counted by the longnames
that they make public, and the last one may make none public.

## Main definitions

* `Surface.State.Hoists`: the longnames that were made public from one moment to a later one, with
  the count of hidden types that goes with them.

## Main statements

* `Surface.pass_hoists`: a pass that makes nothing public leaves no name pending.
* `Surface.runPasses_hoists`: there is one pass more than longnames made public, at most.
* `Surface.passes_isLeast`: the passes that are counted are those until no name is pending.
* `Surface.countP_isPublic_close`: every type that a closure makes public is counted once.
-/

namespace Ambient.Surface

variable {c : Config} {k : Catalogue} {s : State}

/-! ## Longnames that are made public -/

namespace State

/-- Between two moments the given longnames were made public, each of a type that was hidden. -/
structure Hoists (s : State) (names : List String) (later : State) : Prop where
  hoisted : later.hoisted = s.hoisted ++ names
  /-- Each of them leaves one hidden type less. -/
  hidden : hiddenCount later.catalogue + names.length = hiddenCount s.catalogue

namespace Hoists

theorem refl (s : State) : s.Hoists [] s := ⟨(List.append_nil _).symm, rfl⟩

theorem trans {s₁ s₂ s₃ : State} {first second : List String} (h : s₁.Hoists first s₂)
    (h' : s₂.Hoists second s₃) : s₁.Hoists (first ++ second) s₃ where
  hoisted := by rw [h'.hoisted, h.hoisted, List.append_assoc]
  hidden := by
    rw [List.length_append, ← h.hidden, ← h'.hidden]
    omega

/-- A hidden type is made public. -/
theorem hoist {name : String} {e : TypeEntry} (found : s.catalogue.resolve? name = some e)
    (hidden : e.isPublic = false) : s.Hoists [name] (s.hoist name) :=
  ⟨rfl, hiddenCount_publish found hidden⟩

/-- What holds for each step of a fold holds for all of them together. -/
theorem foldl {step : State → String → State}
    (steps : ∀ (s : State) (name : String), ∃ names : List String, s.Hoists names (step s name))
    (todo : List String) (s : State) :
    ∃ names : List String, s.Hoists names (todo.foldl step s) := by
  induction todo generalizing s with
  | nil => exact ⟨[], refl s⟩
  | cons name rest ih =>
    obtain ⟨first, here⟩ := steps s name
    obtain ⟨second, later⟩ := ih (step s name)
    exact ⟨first ++ second, here.trans later⟩

end Hoists

end State

theorem forceOne_hoists (s : State) (longname : String) :
    ∃ names, s.Hoists names (forceOne s longname) := by
  unfold forceOne
  cases found : s.catalogue.resolve? longname with
  | none => exact ⟨[], (List.append_nil _).symm, rfl⟩
  | some e =>
    by_cases shown : e.isPublic = true
    · simp only [shown, if_true]
      exact ⟨[], .refl s⟩
    · simp only [shown, Bool.false_eq_true, if_false]
      exact ⟨[longname], .hoist found (by simpa using shown)⟩

theorem forcePublic_hoists (c : Config) (s : State) :
    ∃ names, s.Hoists names (forcePublic c s) :=
  State.Hoists.foldl forceOne_hoists c.makePublic s

theorem lookUp_hoists (c : Config) (s : State) (name : String) :
    ∃ names, s.Hoists names (lookUp c s name) := by
  rcases lookUp_cases c s name with ⟨e, found, hidden, hoisted⟩ | ⟨same, unchanged, -⟩
  · have step := State.Hoists.hoist found hidden
    exact ⟨[name], by rw [hoisted]; exact step.hoisted, by rw [hoisted]; exact step.hidden⟩
  · exact ⟨[], by rw [unchanged, List.append_nil], by rw [same]; rfl⟩

/-- A pass that makes nothing public leaves no name pending. -/
theorem pass_hoists (c : Config) (s : State) :
    ∃ names, s.Hoists names (pass c s) ∧ (names = [] → (pass c s).pending.isEmpty = true) := by
  obtain ⟨names, hoists⟩ := State.Hoists.foldl (lookUp_hoists c) s.pending.names s
  refine ⟨names, hoists, ?_⟩
  rintro rfl
  rcases pass_progress c s with less | last
  · have equal : hiddenCount (pass c s).catalogue = hiddenCount s.catalogue := hoists.hidden
    omega
  · exact last

/-! ## Counting passes -/

/-- No pass is made if no name is pending, however many are allowed. -/
theorem runPasses_of_isEmpty (c : Config) (fuel : Nat) (done : s.pending.isEmpty = true) :
    runPasses c fuel s = (s, 0) := by
  cases fuel with
  | zero => rfl
  | succ fuel =>
    unfold runPasses
    rw [if_pos done]

/-- There is one pass more than longnames made public, at most. -/
theorem runPasses_hoists (c : Config) (fuel : Nat) (s : State) :
    ∃ names, s.Hoists names (runPasses c fuel s).1 ∧
      (runPasses c fuel s).2 ≤ names.length + 1 := by
  induction fuel generalizing s with
  | zero => exact ⟨[], .refl s, Nat.zero_le _⟩
  | succ fuel ih =>
    by_cases done : s.pending.isEmpty = true
    · rw [runPasses_of_isEmpty c _ done]
      exact ⟨[], .refl s, Nat.zero_le _⟩
    · unfold runPasses
      rw [if_neg done]
      obtain ⟨first, here, silent⟩ := pass_hoists c s
      obtain ⟨second, later, few⟩ := ih (pass c s)
      refine ⟨first ++ second, here.trans later, ?_⟩
      show (runPasses c fuel (pass c s)).2 + 1 ≤ (first ++ second).length + 1
      cases first with
      | nil =>
        -- This pass was the last one.
        rw [runPasses_of_isEmpty c fuel (silent rfl)]
        exact Nat.succ_le_succ (Nat.zero_le _)
      | cons name rest =>
        simp only [List.cons_append, List.length_cons, List.length_append]
        omega

/-- The last state is the one after as many passes as are counted. -/
theorem runPasses_eq_iterate (c : Config) (fuel : Nat) (s : State) :
    (runPasses c fuel s).1 = (pass c)^[(runPasses c fuel s).2] s := by
  induction fuel generalizing s with
  | zero => rfl
  | succ fuel ih =>
    unfold runPasses
    by_cases done : s.pending.isEmpty = true
    · rw [if_pos done]
      rfl
    · rw [if_neg done]
      exact ih (pass c s)

/-- Before each pass that is counted, some name is pending. -/
theorem runPasses_busy (c : Config) (fuel : Nat) (s : State) {n : Nat}
    (early : n < (runPasses c fuel s).2) : ((pass c)^[n] s).pending.isEmpty = false := by
  induction fuel generalizing s n with
  | zero => cases early
  | succ fuel ih =>
    unfold runPasses at early
    by_cases done : s.pending.isEmpty = true
    · rw [if_pos done] at early
      cases early
    · rw [if_neg done] at early
      cases n with
      | zero => simpa using done
      | succ n => exact ih (pass c s) (Nat.lt_of_succ_lt_succ early)

/-! ## The whole closure -/

theorem passes_close (c : Config) (k : Catalogue) : (close c k).2.passes = (run c k).2 := rfl

/-- All that was made public is noted, by the configuration and then by the passes. -/
theorem run_hoists (c : Config) (k : Catalogue) :
    State.Hoists { catalogue := k } (run c k).1.hoisted (run c k).1 := by
  obtain ⟨forced, first⟩ := forcePublic_hoists c { catalogue := k }
  obtain ⟨inside, later, -⟩ := runPasses_hoists c
    (hiddenCount (startOf c k).catalogue + 1) (startOf c k)
  have start : State.Hoists { catalogue := k } forced (startOf c k) := ⟨first.hoisted, first.hidden⟩
  have all : State.Hoists { catalogue := k } (forced ++ inside) (run c k).1 := start.trans later
  have noted : (run c k).1.hoisted = forced ++ inside := all.hoisted
  rw [noted]
  exact all

/-- No pass is made exactly if nothing that is written at first mentions a name. -/
theorem passes_eq_zero_iff (c : Config) (k : Catalogue) :
    (run c k).2 = 0 ↔ ∀ d ∈ (startOf c k).catalogue.emitted, d.recorded c = [] := by
  have mentioned : (startOf c k).pending.isEmpty = true ↔
      ∀ d ∈ (startOf c k).catalogue.emitted, d.recorded c = [] := by
    unfold References.isEmpty
    rw [List.isEmpty_iff, List.eq_nil_iff_forall_not_mem]
    simp only [List.eq_nil_iff_forall_not_mem]
    constructor
    · intro none d written name recorded
      exact none name (mem_firstPending.2 ⟨d, written, recorded⟩)
    · intro none name mem
      obtain ⟨d, written, recorded⟩ := mem_firstPending.1 mem
      exact none d written name recorded
  rw [← mentioned]
  unfold run runPasses
  by_cases done : (startOf c k).pending.isEmpty = true
  · simp [done]
  · simp [done]

/-- The passes that are counted are those up to the first moment at which no name is pending. -/
theorem passes_isLeast (c : Config) (k : Catalogue) :
    IsLeast {n | ((pass c)^[n] (startOf c k)).pending = .empty} (run c k).2 := by
  constructor
  · have done := run_pending c k
    unfold run at done
    rw [runPasses_eq_iterate] at done
    exact done
  · intro n done
    by_contra early
    have busy := runPasses_busy c _ _ (Nat.lt_of_not_le early)
    rw [show ((pass c)^[n] (startOf c k)).pending = .empty from done] at busy
    cases busy

/-- There is one pass more than hidden types at the start, at most. -/
theorem passes_le (c : Config) (k : Catalogue) :
    (run c k).2 ≤ hiddenCount (startOf c k).catalogue + 1 := by
  obtain ⟨inside, hoists, few⟩ := runPasses_hoists c
    (hiddenCount (startOf c k).catalogue + 1) (startOf c k)
  have balance : hiddenCount (run c k).1.catalogue + inside.length =
    hiddenCount (startOf c k).catalogue := hoists.hidden
  have passes : (run c k).2 ≤ inside.length + 1 := few
  omega

/-! ## Public and hidden types -/

/-- The types that are not hidden are public. -/
theorem countP_isPublic_add_hiddenCount (k : Catalogue) :
    k.types.values.countP TypeEntry.isPublic + hiddenCount k = k.types.keys.length := by
  rw [← OrderedMap.length_values]
  unfold hiddenCount
  rw [List.length_eq_countP_add_countP TypeEntry.isPublic]
  simp

/-- Every type that a closure makes public is counted once. -/
theorem countP_isPublic_close (c : Config) (keyed : k.KeyedByLongname) :
    (close c k).1.types.values.countP TypeEntry.isPublic =
      k.types.values.countP TypeEntry.isPublic + (close c k).2.hoisted.length := by
  have before := countP_isPublic_add_hiddenCount k
  have after := countP_isPublic_add_hiddenCount (run c k).1.catalogue
  have hidden : hiddenCount (run c k).1.catalogue + (run c k).1.hoisted.length = hiddenCount k :=
    (run_hoists c k).hidden
  rw [(run_invariant c keyed).onlyPublishes.keys] at after
  show (run c k).1.catalogue.types.values.countP TypeEntry.isPublic =
    _ + (run c k).1.hoisted.length
  omega

end Ambient.Surface
