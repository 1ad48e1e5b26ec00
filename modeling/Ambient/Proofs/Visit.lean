import Ambient.Declaration.Mentions
import Ambient.Proofs.References
/-!
# Laws of visits

A visit treats what it records as a black box. So two visits of one declaration that start from
related records and keep them related at every expression and at every end of a declaration end with
related records: this is the one induction on declarations here, and the rest are instances of it.

## Main definitions

* `Recorder.Related`: two recorders keep a relation between what they record.
* `Recorder.raws`: record the expressions alone, with no regard to placeholders.
* `Config.referencesIn`: the names in one expression that could stand for a documented declaration.
* `Declaration.references`: these names for all expressions of a declaration.
* `Declaration.recorded`: the names that a visit collects in an empty set.

## Main statements

* `Declaration.visit_related`: visits keep what their recorders keep.
* `Declaration.collect_eq_insertAll`: the nested sets of a visit amount to one list of names, each
  free of the placeholders around it.
* `Declaration.collectAll_perm`: it does not matter in which order and how often declarations are
  visited.
* `Declaration.collect_contribution`: a visit appends what is new, a second one nothing, and two
  visits may change places.
-/

namespace Ambient

/-! ## Related recorders -/

namespace Recorder

variable {σ τ : Type}

/-- Two recorders keep a relation `R` if it holds again after every expression, and after every
inner declaration whose two records are related by `inner`. -/
structure Related (p : Recorder σ) (q : Recorder τ) (inner R : σ → τ → Prop) : Prop where
  record : ∀ {s t} (raw : String), R s t → R (p.record s raw) (q.record t raw)
  leave : ∀ {s t s' t'} (placeholders : List String), R s t → inner s' t' →
    R (p.leave s s' placeholders) (q.leave t t' placeholders)

variable {p : Recorder σ} {q : Recorder τ} {inner R : σ → τ → Prop}

theorem Related.recordAll (h : Related p q inner R) (raws : List String) {s : σ} {t : τ}
    (start : R s t) : R (p.recordAll raws s) (q.recordAll raws t) := by
  induction raws generalizing s t with
  | nil => exact start
  | cons raw raws ih => exact ih (h.record raw start)

theorem Related.recordWithin (h : Related p q inner R) (hin : Related p q inner inner)
    (start : inner p.start q.start) (placeholders raws : List String) {s : σ} {t : τ}
    (outer : R s t) :
    R (p.recordWithin placeholders raws s) (q.recordWithin placeholders raws t) :=
  h.leave placeholders outer (hin.recordAll raws start)

end Recorder

namespace Declaration

section Related

variable {σ τ : Type} {p : Recorder σ} {q : Recorder τ} {inner : σ → τ → Prop}

theorem visitConstructor_related {R : σ → τ → Prop} (h : Recorder.Related p q inner R)
    (hin : Recorder.Related p q inner inner) (start : inner p.start q.start) (d : Doclet)
    {s : σ} {t : τ} (outer : R s t) :
    R (visitConstructor p d s) (visitConstructor q d t) := by
  unfold visitConstructor
  split
  · exact h.recordWithin hin start _ _ outer
  · exact outer

mutual

/-- **Visits keep what their recorders keep.** The record of an inner declaration starts anew, so it
is related by `inner`, whatever `R` says about the record outside. -/
theorem visit_related {R : σ → τ → Prop} (hin : Recorder.Related p q inner inner)
    (start : inner p.start q.start) (h : Recorder.Related p q inner R) :
    ∀ (d : Declaration) {s : σ} {t : τ}, R s t → R (d.visit p s) (d.visit q t)
  | .classType d _ members, s, t, outer => by
    have parents := hin.recordAll d.augments start
    have signature := visitConstructor_related hin hin start d parents
    exact h.leave _ outer (visitPublic_related hin start hin members signature)
  | .typedef d _ [], s, t, outer => h.recordWithin hin start _ _ outer
  | .typedef d _ (first :: rest), s, t, outer => by
    have head := visit_related hin start hin first start
    exact h.leave _ outer (visitAll_related hin start hin rest head)
  | .member m, s, t, outer => by
    cases form : m.form with
    | property => simpa [visit, Member.visit, form] using h.recordAll _ outer
    | method => simpa [visit, Member.visit, form] using h.recordWithin hin start _ _ outer
  | .ctor k, s, t, outer => h.recordWithin hin start _ _ outer
  | .addedInterface i, s, t, outer => h.recordAll _ outer
  | .addedAlias a, s, t, outer => h.record _ outer

theorem visitPublic_related {R : σ → τ → Prop} (hin : Recorder.Related p q inner inner)
    (start : inner p.start q.start) (h : Recorder.Related p q inner R) :
    ∀ (ds : List Declaration) {s : σ} {t : τ}, R s t → R (visitPublic p ds s) (visitPublic q ds t)
  | [], _, _, outer => outer
  | d :: rest, s, t, outer => by
    unfold visitPublic
    by_cases shown : d.isPublic = true
    · rw [if_pos shown, if_pos shown]
      exact visitPublic_related hin start h rest (visit_related hin start h d outer)
    · rw [if_neg shown, if_neg shown]
      exact visitPublic_related hin start h rest outer

theorem visitAll_related {R : σ → τ → Prop} (hin : Recorder.Related p q inner inner)
    (start : inner p.start q.start) (h : Recorder.Related p q inner R) :
    ∀ (ds : List Declaration) {s : σ} {t : τ}, R s t → R (visitAll p ds s) (visitAll q ds t)
  | [], _, _, outer => outer
  | d :: rest, _, _, outer =>
    visitAll_related hin start h rest (visit_related hin start h d outer)

end

end Related

end Declaration

/-! ## The names that a visit collects -/

/-- The names in one expression that could stand for a documented declaration: placeholders that are
known where it stands are left out. -/
def Config.referencesIn (c : Config) (m : Mention) : List String :=
  (References.accepted (TypeExpr.Event.references (c.typeText m.raw).events)).filter
    fun name => !m.bound.contains name

/-- These names for some expressions, from left to right and with repetitions. -/
def Config.referencesOf (c : Config) (mentions : List Mention) : List String :=
  mentions.flatMap c.referencesIn

namespace Config

@[simp] theorem referencesOf_append (c : Config) (first second : List Mention) :
    c.referencesOf (first ++ second) = c.referencesOf first ++ c.referencesOf second :=
  List.flatMap_append

/-- One more placeholder list around an expression leaves out the names in that list. -/
theorem referencesIn_within (c : Config) (placeholders : List String) (m : Mention) :
    c.referencesIn (m.within placeholders) =
      (c.referencesIn m).filter fun name => !placeholders.contains name := by
  unfold referencesIn Mention.within
  rw [List.filter_filter]
  apply List.filter_congr
  intro name _
  simp [Bool.and_comm]

theorem referencesOf_within (c : Config) (placeholders : List String) (mentions : List Mention) :
    c.referencesOf (mentions.map (Mention.within placeholders)) =
      (c.referencesOf mentions).filter fun name => !placeholders.contains name := by
  induction mentions with
  | nil => rfl
  | cons m rest ih =>
    unfold referencesOf at ih ⊢
    rw [List.map_cons, List.flatMap_cons, List.flatMap_cons, List.filter_append,
      referencesIn_within, ih]

end Config

namespace Declaration

/-- The names in a declaration that could stand for a documented one, from left to right and with
repetitions. -/
def references (c : Config) (d : Declaration) : List String :=
  c.referencesOf d.mentions

/-- A set filled from the names of the recorded expressions stays so, whatever it held before. -/
theorem related_insertAll (c : Config) (r : References) :
    Recorder.Related (References.recorder c) Mention.recorder
      (fun inside mentions => inside = References.empty.insertAll (c.referencesOf mentions))
      (fun outside mentions => outside = r.insertAll (c.referencesOf mentions)) where
  record := by
    rintro outside mentions raw rfl
    have bare : c.referencesOf [{ raw, bound := [] }] =
        References.accepted (TypeExpr.Event.references (c.typeText raw).events) := by
      simp [Config.referencesOf, Config.referencesIn]
    show (r.insertAll _).addAll _ = _
    rw [References.addAll_eq_insertAll, ← bare, ← References.insertAll_append,
      ← Config.referencesOf_append]
    rfl
  leave := by
    rintro outside mentions inside inner placeholders rfl rfl
    show (r.insertAll _).insertFree _ placeholders = _
    rw [References.insertFree_insertAll, ← References.insertAll_append,
      ← Config.referencesOf_within, ← Config.referencesOf_append]
    rfl

/-- **The nested sets of a visit amount to one list of names.** What a declaration adds to a set are
the names in its expressions, from left to right, each free of the placeholders around it. -/
theorem collect_eq_insertAll (c : Config) (d : Declaration) (r : References) :
    d.collect c r = r.insertAll (d.references c) := by
  have nothing : r = r.insertAll (c.referencesOf []) := rfl
  exact visit_related (related_insertAll c .empty) rfl (related_insertAll c r) d nothing

/-- What a declaration adds to a set is what it adds to an empty one. -/
theorem collect_eq_insertFree (c : Config) (d : Declaration) (r : References) :
    d.collect c r = r.insertFree (d.collect c .empty) [] := by
  have all : (d.references c).filter (fun name => !([] : List String).contains name) =
      d.references c := List.filter_eq_self.2 fun _ _ => rfl
  rw [collect_eq_insertAll, collect_eq_insertAll, References.insertFree_insertAll, all]

/-- The names that a visit collects in an empty set. -/
def recorded (c : Config) (d : Declaration) : List String :=
  (d.collect c .empty).names

/-- Declarations with the same recorded names add the same to every set. -/
theorem collect_eq_of_recorded {c : Config} {d d' : Declaration}
    (same : d'.recorded c = d.recorded c) (r : References) : d'.collect c r = d.collect c r := by
  rw [collect_eq_insertFree, collect_eq_insertFree c d, References.ext same]

theorem mem_recorded {c : Config} {d : Declaration} {name : String} :
    name ∈ d.recorded c ↔ name ∈ d.references c := by
  simp [recorded, collect_eq_insertAll]

/-- A name comes up in a visit if it was there before or if the declaration mentions it. -/
theorem mem_collect {c : Config} {d : Declaration} {r : References} {name : String} :
    name ∈ (d.collect c r).names ↔ name ∈ r.names ∨ name ∈ d.recorded c := by
  rw [collect_eq_insertAll, References.mem_insertAll, mem_recorded]

/-- Visits one after another put in the names of all their declarations. -/
theorem collectAll_eq_insertAll (c : Config) (ds : List Declaration) (r : References) :
    ds.foldl (fun pending d => d.collect c pending) r =
      r.insertAll (ds.flatMap (references c)) := by
  induction ds generalizing r with
  | nil => rfl
  | cons d rest ih =>
    rw [List.foldl_cons, ih, collect_eq_insertAll, List.flatMap_cons, References.insertAll_append]

/-- A name comes up in some visits if it was there before or if one of the declarations mentions
it. -/
theorem mem_collectAll {c : Config} {ds : List Declaration} {r : References} {name : String} :
    name ∈ (ds.foldl (fun pending d => d.collect c pending) r).names ↔
      name ∈ r.names ∨ ∃ d ∈ ds, name ∈ d.recorded c := by
  simp only [collectAll_eq_insertAll, References.mem_insertAll, List.mem_flatMap, mem_recorded]

/-- **It does not matter in which order and how often declarations are visited.** -/
theorem collectAll_perm (c : Config) (r : References) {ds es : List Declaration}
    (same : ∀ d, d ∈ ds ↔ d ∈ es) :
    (ds.foldl (fun pending d => d.collect c pending) r).names.Perm
      (es.foldl (fun pending d => d.collect c pending) r).names := by
  rw [collectAll_eq_insertAll, collectAll_eq_insertAll]
  apply References.insertAll_perm
  intro name
  simp only [List.mem_flatMap, same]

/-- What a visit adds to a set are the names that it collects in an empty one and that the set does
not have yet. -/
theorem names_collect (c : Config) (d : Declaration) (r : References) :
    (d.collect c r).names =
      r.names ++ (d.recorded c).filter fun name => !r.names.contains name := by
  unfold recorded
  rw [collect_eq_insertAll, collect_eq_insertAll, References.names_insertAll,
    References.names_insertAll_empty]

/-- A visit whose names are all there changes nothing. -/
theorem collect_of_subset {c : Config} {d : Declaration} {r : References}
    (known : d.recorded c ⊆ r.names) : d.collect c r = r := by
  rw [collect_eq_insertAll]
  exact References.insertAll_of_subset fun _ mem => known (mem_recorded.2 mem)

/-- **A visit appends what is new, a second one nothing, and two visits may change places.** The
names that were there stay in front in their old order. Behind them come the names that the visit
collects in an empty set, without those that were there. -/
theorem collect_contribution (c : Config) (d e : Declaration) (r : References) :
    r.names <+: (d.collect c r).names ∧
      (d.collect c r).names =
        r.names ++ (d.collect c .empty).names.filter (fun name => !r.names.contains name) ∧
      d.collect c (d.collect c r) = d.collect c r ∧
      (e.collect c (d.collect c r)).names.Perm (d.collect c (e.collect c r)).names := by
  refine ⟨?_, names_collect c d r, ?_, ?_⟩
  · rw [collect_eq_insertAll]
    exact References.names_isPrefixOf_insertAll r _
  · exact collect_of_subset fun _ mem => mem_collect.2 (Or.inr mem)
  · refine @collectAll_perm c r [d, e] [e, d] fun x => ?_
    simp [or_comm]

end Declaration

/-! ## The expressions alone -/

/-- Record the expressions alone. -/
def Recorder.raws : Recorder (List String) where
  start := []
  record seen raw := seen ++ [raw]
  leave outer inner _ := outer ++ inner

/-- The expressions that are recorded with their placeholders are those that are recorded alone. -/
theorem Declaration.visit_raws (d : Declaration) :
    d.visit Recorder.raws [] = d.mentions.map Mention.raw := by
  have same : Recorder.Related Recorder.raws Mention.recorder
      (fun seen mentions => seen = mentions.map Mention.raw)
      (fun seen mentions => seen = mentions.map Mention.raw) :=
    { record := by
        rintro seen mentions raw rfl
        show _ = (mentions ++ [Mention.mk raw []]).map Mention.raw
        rw [List.map_append]
        rfl
      leave := by
        rintro seen mentions inside inner placeholders rfl rfl
        show _ = (mentions ++ inner.map (Mention.within placeholders)).map Mention.raw
        rw [List.map_append, List.map_map]
        rfl }
  exact visit_related same rfl same d rfl

end Ambient
