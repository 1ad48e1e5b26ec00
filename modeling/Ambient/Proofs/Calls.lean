import Ambient.Proofs.Building
import Mathlib.Data.List.Induction
/-!
# Sessions have no memory

A session takes in records and runs over those that are there, in any order of calls. What it keeps
between the calls are the expanded records, and what was found in expanding them; the latter is
given out by the next run. So what a run gives depends on the records taken in so far and not on the
runs before it.

## Main definitions

* `Session.Call`: a call on a session; `Session.perform`: a session after some calls, with the
  outputs of the runs among them.
* `Session.taken`: the records that some calls hand over.
* `Session.reported`: those among them that are handed over before the last run.
* `Session.Follows`: what a session keeps after some calls.

## Main statements

* `Session.Follows.call`: one more call is followed.
* `Session.generate_eq_fresh`: a run gives what a fresh session gives, less what is reported
  already.
-/

namespace Ambient

/-! ## Findings from before a run -/

section Generate

variable (c : Config) (ds : List Doclet) (older newer : List Finding)

theorem findings_generate_append :
    (generate c ds (older ++ newer)).findings = older ++ (generate c ds newer).findings := by
  rw [findings_generate, findings_generate]
  simp only [List.append_assoc]

/-- Findings from before a run that warn of nothing show among its findings only. -/
theorem generate_of_no_warnings {older newer : List Finding}
    (quiet : Finding.countWarnings older = 0) (quiet' : Finding.countWarnings newer = 0) :
    let output := generate c ds older
    let output' := generate c ds newer
    output.declarations = output'.declarations ∧ output.publicTypes = output'.publicTypes ∧
      output.unresolved = output'.unresolved ∧ output.stats = output'.stats := by
  intro output output'
  have warnings : Finding.countWarnings output.findings =
      Finding.countWarnings output'.findings := by
    rw [findings_generate, findings_generate]
    simp only [Finding.countWarnings_append, quiet, quiet']
  refine ⟨?_, ?_, ?_, ?_⟩
  · rw [declarations_generate, declarations_generate]
  · rw [publicTypes_generate, publicTypes_generate]
  · rw [unresolved_generate, unresolved_generate]
  · rw [stats_generate, stats_generate, warnings]

end Generate

namespace Session

/-! ## Calls -/

/-- A call on a session. -/
inductive Call
  /-- Take in one record. -/
  | add (d : Doclet)
  /-- Take in records from left to right. -/
  | addAll (ds : List Doclet)
  /-- Run over all records that were taken in. -/
  | generate

namespace Call

/-- The records that a call hands over. -/
def records : Call → List Doclet
  | .add d => [d]
  | .addAll ds => ds
  | .generate => []

/-- Whether the call is a run. -/
def isRun : Call → Bool
  | .add _ | .addAll _ => false
  | .generate => true

end Call

/-- The session after a call, with the output if the call is a run. -/
def call (s : Session) : Call → Session × List Output
  | .add d => (s.add d, [])
  | .addAll ds => (s.addAll ds, [])
  | .generate => (s.generate.1, [s.generate.2])

/-- The session after some calls, with the outputs of the runs among them. -/
def perform (s : Session) : List Call → Session × List Output
  | [] => (s, [])
  | call :: rest =>
    let (next, outputs) := s.call call
    let (final, later) := next.perform rest
    (final, outputs ++ later)

theorem perform_append (s : Session) (first second : List Call) :
    s.perform (first ++ second) =
      (((s.perform first).1.perform second).1,
        (s.perform first).2 ++ ((s.perform first).1.perform second).2) := by
  induction first generalizing s with
  | nil => rfl
  | cons call rest ih =>
    simp only [List.cons_append, perform, ih, List.append_assoc]

/-- The records that some calls hand over. -/
def taken (calls : List Call) : List Doclet :=
  calls.flatMap Call.records

theorem taken_concat (calls : List Call) (call : Call) :
    taken (calls ++ [call]) = taken calls ++ call.records := by
  simp [taken]

/-- The records that are handed over before the last run among some calls. -/
def reported : List Call → List Doclet
  | [] => []
  | call :: rest => (if rest.any Call.isRun then call.records else []) ++ reported rest

/-- A run makes all records count that were handed over before it. -/
theorem reported_concat (calls : List Call) (call : Call) :
    reported (calls ++ [call]) = if call.isRun then taken calls else reported calls := by
  induction calls with
  | nil => simp [reported, taken]
  | cons first rest ih =>
    rw [List.cons_append, reported, ih, List.any_append]
    cases run : call.isRun <;> simp [run, reported, taken]

/-! ## What a session keeps -/

/-- The session stands where it does after some calls: it has the expanded records of all of them,
and what was found in expanding those that no run has reported. -/
structure Follows (c : Config) (calls : List Call) (s : Session) : Prop where
  config : s.config = c
  doclets : s.doclets = (taken calls).map fun d => (FunctionTypedef.expand d).1
  findings : ((reported calls).flatMap fun d => (FunctionTypedef.expand d).2) ++ s.findings =
    (taken calls).flatMap fun d => (FunctionTypedef.expand d).2

namespace Follows

variable {c : Config} {calls : List Call} {s : Session}

/-- Records that are taken in are followed. -/
theorem addAll (h : Follows c calls s) (call : Call) (noRun : call.isRun = false) :
    Follows c (calls ++ [call]) (s.addAll call.records) where
  config := (config_addAll s call.records).trans h.config
  doclets := by
    rw [doclets_addAll, h.doclets, taken_concat, List.map_append]
  findings := by
    rw [findings_addAll, reported_concat, noRun, taken_concat, List.flatMap_append,
      ← List.append_assoc, if_neg Bool.false_ne_true, h.findings]

/-- A run is followed: it gives out what was found and keeps the records. -/
theorem generate (h : Follows c calls s) : Follows c (calls ++ [.generate]) s.generate.1 where
  config := h.config
  doclets := by
    rw [taken_concat]
    exact h.doclets.trans (by simp [Call.records])
  findings := by
    rw [reported_concat, taken_concat]
    simp [Session.generate, Call.isRun, Call.records]

/-- **One more call is followed.** -/
theorem call (h : Follows c calls s) (next : Call) :
    Follows c (calls ++ [next]) (s.call next).1 := by
  cases next with
  | add d => exact h.addAll (.add d) rfl
  | addAll ds => exact h.addAll (.addAll ds) rfl
  | generate => exact h.generate

/-- Nothing that a session keeps is a warning. -/
theorem countWarnings (h : Follows c calls s) : Finding.countWarnings s.findings = 0 := by
  have all : Finding.countWarnings
      ((taken calls).flatMap fun d => (FunctionTypedef.expand d).2) = 0 := by
    have fresh := countWarnings_addAll { config := c } (taken calls)
    rw [findings_addAll] at fresh
    exact fresh
  rw [← h.findings, Finding.countWarnings_append] at all
  omega

/-- What a run gives depends on the records that were taken in, and on what is kept to report. -/
theorem output_eq (h : Follows c calls s) :
    s.generate.2 = Ambient.generate c ((taken calls).map fun d => (FunctionTypedef.expand d).1)
      s.findings := by
  rw [← h.doclets, ← h.config]
  rfl

end Follows

/-- What a session keeps after any calls. -/
theorem follows_perform (c : Config) (calls : List Call) :
    Follows c calls (({ config := c } : Session).perform calls).1 := by
  induction calls using List.reverseRecOn with
  | nil => exact ⟨rfl, rfl, rfl⟩
  | append_singleton calls next ih =>
    rw [perform_append]
    exact ih.call next

/-! ## What a run gives -/

/-- **A session has no memory.** In any sequence of calls, a run gives the same declarations, the
same public types, the same unresolved names and the same statistics as a fresh session that takes
in all records so far and runs once. Its findings are those of the fresh session, less what was
found in expanding the records that an earlier run has reported. It leaves the records and the
configuration as they are and keeps no findings. -/
theorem generate_eq_fresh (c : Config) (before after : List Call) :
    let start : Session := { config := c }
    let (session, outputs) := start.perform before
    let (next, output) := session.generate
    let fresh := (start.addAll (taken before)).generate.2
    let old := (reported before).flatMap fun d => (FunctionTypedef.expand d).2
    (start.perform (before ++ .generate :: after)).2 =
      outputs ++ output :: (next.perform after).2 ∧
    output.declarations = fresh.declarations ∧
    output.publicTypes = fresh.publicTypes ∧
    output.unresolved = fresh.unresolved ∧
    output.stats = fresh.stats ∧
    fresh.findings = old ++ output.findings ∧
    (∀ f ∈ old, f.severity = .info ∧ f.code = some .callbackUnmatched ∧
      ∃ d ∈ reported before, f.subject = some d.longname) ∧
    next.doclets = session.doclets ∧ next.config = session.config ∧ next.findings = [] := by
  intro start
  let session := (start.perform before).1
  let fresh := (start.addAll (taken before)).generate.2
  have kept : Follows c before session := follows_perform c before
  -- The fresh session is one that follows a single call.
  have keptAtOnce : Follows c [.addAll (taken before)] (start.addAll (taken before)) :=
    follows_perform c [.addAll (taken before)]
  have sameRecords : taken [.addAll (taken before)] = taken before :=
    List.append_nil _
  have output := kept.output_eq
  have output' : fresh = _ := keptAtOnce.output_eq
  rw [sameRecords] at output'
  have findings : (start.addAll (taken before)).findings =
      ((reported before).flatMap fun d => (FunctionTypedef.expand d).2) ++ session.findings := by
    have all := keptAtOnce.findings
    rw [sameRecords, ← kept.findings] at all
    exact all
  have alike := generate_of_no_warnings c ((taken before).map fun d => (FunctionTypedef.expand d).1)
    kept.countWarnings keptAtOnce.countWarnings
  rw [← output, ← output'] at alike
  obtain ⟨declarations, publicTypes, unresolved, stats⟩ := alike
  have reports : fresh.findings =
      ((reported before).flatMap fun d => (FunctionTypedef.expand d).2) ++
        session.generate.2.findings := by
    rw [output, output', findings]
    exact findings_generate_append c _ _ _
  have inOrder := congrArg Prod.snd (perform_append start before (.generate :: after))
  refine ⟨inOrder, declarations, publicTypes, unresolved, stats, reports, ?_, rfl, rfl, rfl⟩
  intro f mem
  obtain ⟨d, handedOver, found⟩ := List.mem_flatMap.1 mem
  rw [FunctionTypedef.eq_unmatched_of_mem_expand found]
  exact ⟨rfl, rfl, d, handedOver, rfl⟩

end Session

end Ambient
