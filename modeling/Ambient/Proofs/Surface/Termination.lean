import Ambient.Proofs.Building
import Ambient.Proofs.Surface.Passes
import Ambient.Proofs.TypeExpr.Plain
/-!
# A closure terminates

The passes of a closure come to an end, with a bound on their number that cannot be improved. The
bound is reached by chains: classes of which only the first is public, each of them extending the
next one and the last one extending the first. A pass over a chain gets one class further, and one
more pass is made to find that the first class is public already.

## Main definitions

* `Surface.chain`: the records of a chain.
* `Surface.Reached`: the moments of the closure of a chain, by how far it got.

## Main statements

* `Surface.Reached.pass`: a pass gets one class further.
* `Surface.passes_chain`: the closure of a chain takes as many passes as the bound allows.
* `Surface.close_terminates`: the passes come to an end, and how many there are.
-/

namespace Ambient

open TypeExpr DocType

/-! ## The name in a name -/

/-- A text that is only a name mentions that name. -/
theorem Config.referencesIn_name {c : Config} {s : List Char} (isName : IsName s)
    (unreplaced : c.replacement? (String.ofList s) = none)
    (accepted : References.accepts (String.ofList s) = true) :
    c.referencesIn { raw := String.ofList s, bound := [] } = [String.ofList s] := by
  have trimmed : Text.trimmed (String.ofList s) = String.ofList s := by
    rw [Text.trimmed, String.toList_ofList, isName.1.tight.trim_eq]
  have noArray : Form.isArrayWord (String.ofList s).toList = false := by
    rw [String.toList_ofList, Form.isArrayWord, beq_eq_false_iff_ne]
    exact isName.2
  have reads : c.ReadsAs (String.ofList s) (String.ofList s) := ⟨trimmed, unreplaced, noArray⟩
  rw [c.referencesIn_reference accepted, if_pos reads]

namespace Surface

/-! ## Chains -/

/-- The longname of a class of a chain. -/
def knot (i : Nat) : String := String.ofList (List.replicate (i + 1) 'Q')

/-- The class that a class of a chain extends. -/
def next (n i : Nat) : Nat := if i < n then i + 1 else 0

/-- A class of a chain; only the first one is public. -/
def link (n i : Nat) : Doclet :=
  { name := knot i, longname := knot i, kind := .classType
    access := if i = 0 then none else some .privateAccess
    augments := [knot (next n i)] }

/-- A chain with some number of hidden classes. -/
def chain (n : Nat) : List Doclet := (List.range (n + 1)).map (link n)

theorem knot_inj {i j : Nat} (same : knot i = knot j) : i = j := by
  have lengths := congrArg List.length (String.ofList_inj.1 same)
  simpa using lengths

theorem isName_knot (i : Nat) : IsName (List.replicate (i + 1) 'Q') := by
  refine ⟨.single ⟨?_, ?_⟩, ?_⟩
  · show (Text.isNameStart 'Q' && (List.replicate i 'Q').all Text.isNameChar) = true
    have letter : Text.isNameChar 'Q' = true := by decide
    simp only [List.all_replicate, letter, ite_self, Bool.and_true]
    decide
  · simp
  · intro word
    have first := congrArg List.head? word
    simp [List.replicate_succ] at first

/-- A longname of a chain is not among names that start with another letter. -/
theorem knot_not_mem {names : List String} (others : ∀ name ∈ names, name.toList.head? ≠ some 'Q')
    (i : Nat) : knot i ∉ names := by
  intro mem
  have first := others _ mem
  simp [knot, List.replicate_succ] at first

theorem accepts_knot (i : Nat) : References.accepts (knot i) = true := by
  have whole : ∀ m, Text.splitOn References.isJoint (List.replicate m 'Q') =
      [List.replicate m 'Q'] := by
    intro m
    induction m with
    | zero => rfl
    | succ m ih =>
      rw [List.replicate_succ, Text.splitOn, ih]
      rfl
  have segment : References.isSegment (List.replicate (i + 1) 'Q') = true := by
    have letter : (Text.isNameChar 'Q' || 'Q' == '-') = true := by decide
    show (Text.isNameStart 'Q' && (List.replicate i 'Q').all _) = true
    simp only [List.all_replicate, letter, ite_self, Bool.and_true]
    decide
  refine References.accepts_iff.2 ⟨knot_not_mem (by decide) i, ?_⟩
  unfold References.isReference knot
  have plain : Text.dropStart? "module:".toList (List.replicate (i + 1) 'Q') = none :=
    Text.dropStart?_eq_none_of_head (p := 'm') (by simp [List.replicate_succ])
  simp only [String.toList_ofList, plain, Option.getD_none, whole, List.all_cons, List.all_nil,
    segment, Bool.and_true]

theorem unreplaced_knot (i : Nat) : ({} : Config).replacement? (knot i) = none :=
  OrderedMap.lookup_eq_none_iff.2 (knot_not_mem (by decide) i)

/-- The only name that a class of a chain mentions is that of the class it extends. -/
theorem recorded_link (n i : Nat) :
    (TypeEntry.ofDoclet (link n i) {}).toDeclaration.recorded {} = [knot (next n i)] := by
  have mentions : (TypeEntry.ofDoclet (link n i) {}).toDeclaration.mentions =
      [{ raw := knot (next n i), bound := [] }] := rfl
  unfold Declaration.recorded
  rw [Declaration.collect_eq_insertAll]
  unfold Declaration.references Config.referencesOf
  rw [mentions, List.flatMap_singleton, knot,
    Config.referencesIn_name (isName_knot _) (unreplaced_knot _) (accepts_knot _)]
  rfl

/-! ## The catalogue of a chain -/

/-- The catalogue of a chain. -/
def chainCatalogue (n : Nat) : Catalogue := (Catalogue.build {} (chain n)).1

theorem keyed_chain (n : Nat) : (chainCatalogue n).KeyedByLongname :=
  Catalogue.keyed_build {} (chain n)

theorem typeDoclets_chain (n : Nat) : Catalogue.typeDoclets {} (chain n) = chain n := by
  refine List.filter_eq_self.2 fun d mem => ?_
  obtain ⟨i, -, rfl⟩ := List.mem_map.1 mem
  rfl

theorem memberDoclets_chain (n : Nat) : Catalogue.memberDoclets {} (chain n) = [] := by
  have none : ((chain n).filter fun d => d.kind.makesMember && !Catalogue.passesOver {} d &&
      !(d.undocumented && (Catalogue.documentedMembers (chain n)).contains d.longname)) = [] := by
    rw [List.filter_eq_nil_iff]
    intro d mem
    obtain ⟨i, -, rfl⟩ := List.mem_map.1 mem
    exact Bool.false_ne_true
  unfold Catalogue.memberDoclets
  simp only [none]
  rfl

/-- In the catalogue of a chain there are the classes of the chain. -/
theorem resolve?_chain {n : Nat} {name : String} {e : TypeEntry} :
    (chainCatalogue n).resolve? name = some e ↔
      ∃ i ≤ n, knot i = name ∧ TypeEntry.ofDoclet (link n i) {} = e := by
  have built : (chainCatalogue n).resolve? name =
      ((chain n).find? fun d => d.longname = name).map fun d => TypeEntry.ofDoclet d {} := by
    unfold chainCatalogue
    rw [Catalogue.resolve?_build, typeDoclets_chain, memberDoclets_chain, List.filter_nil]
    congr 1
    funext d
    simp [TypeEntry.withMembersOf]
  rw [built, Option.map_eq_some_iff]
  constructor
  · rintro ⟨d, found, rfl⟩
    obtain ⟨i, inside, rfl⟩ := List.mem_map.1 (List.mem_of_find?_eq_some found)
    exact ⟨i, Nat.le_of_lt_succ (List.mem_range.1 inside), Catalogue.longname_of_find? found, rfl⟩
  · rintro ⟨i, inside, rfl, rfl⟩
    refine ⟨link n i, ?_, rfl⟩
    have inChain : link n i ∈ chain n :=
      List.mem_map_of_mem (List.mem_range.2 (Nat.lt_succ_of_le inside))
    cases found : (chain n).find? fun d => d.longname = knot i with
    | none => exact absurd (List.find?_eq_none.1 found _ inChain) (by simp [link])
    | some d =>
      obtain ⟨j, -, rfl⟩ := List.mem_map.1 (List.mem_of_find?_eq_some found)
      rw [knot_inj (Catalogue.longname_of_find? found)]

theorem isPublic_link (n i : Nat) :
    (TypeEntry.ofDoclet (link n i) {}).isPublic = decide (i = 0) := by
  by_cases first : i = 0 <;> simp [link, TypeEntry.ofDoclet, Doclet.isPublicByItself, first]

theorem mem_publicNames_chain {n i : Nat} (inside : i ≤ n) :
    knot i ∈ publicNames (chainCatalogue n) ↔ i = 0 := by
  rw [mem_publicNames (keyed_chain n)]
  constructor
  · rintro ⟨e, found, shown⟩
    obtain ⟨j, -, same, rfl⟩ := resolve?_chain.1 found
    rw [isPublic_link, decide_eq_true_iff] at shown
    rw [← knot_inj same, shown]
  · rintro rfl
    exact ⟨_, resolve?_chain.2 ⟨0, inside, rfl, rfl⟩, by rw [isPublic_link]; rfl⟩

/-- What is written of a chain at first is its first class. -/
theorem mem_emitted_chain {n : Nat} {d : Declaration} :
    d ∈ (chainCatalogue n).emitted ↔ d = (TypeEntry.ofDoclet (link n 0) {}).toDeclaration := by
  have noMember : (chainCatalogue n).moduleMembers = [] := by
    unfold chainCatalogue
    rw [Catalogue.moduleMembers_build, memberDoclets_chain]
    rfl
  have noneAdded : (chainCatalogue n).addedTypes.values = [] := by
    unfold chainCatalogue
    rw [Catalogue.addedTypes_build]
    rfl
  rw [Catalogue.mem_emitted, noMember, noneAdded]
  simp only [List.not_mem_nil, false_and, exists_false, or_false]
  constructor
  · rintro ⟨e, mem, shown, rfl⟩
    obtain ⟨name, found⟩ := OrderedMap.mem_values_iff.1 mem
    obtain ⟨i, -, -, rfl⟩ := resolve?_chain.1 found
    rw [isPublic_link, decide_eq_true_iff] at shown
    rw [shown]
  · rintro rfl
    refine ⟨_, OrderedMap.mem_values_iff.2 ⟨knot 0, ?_⟩, by rw [isPublic_link]; rfl, rfl⟩
    exact resolve?_chain.2 ⟨0, Nat.zero_le n, rfl, rfl⟩

/-- A chain has as many hidden classes as were asked for, at most. -/
theorem hiddenCount_chain (n : Nat) : hiddenCount (chainCatalogue n) ≤ n := by
  have all : (chainCatalogue n).types.keys.length ≤ n + 1 := by
    have inside : (chainCatalogue n).types.keys ⊆ (List.range (n + 1)).map knot := by
      intro name mem
      obtain ⟨e, found⟩ := OrderedMap.mem_keys_iff.1 mem
      obtain ⟨i, few, rfl, -⟩ := resolve?_chain.1 found
      exact List.mem_map_of_mem (List.mem_range.2 (Nat.lt_succ_of_le few))
    have few : (chainCatalogue n).types.keys.length ≤ ((List.range (n + 1)).map knot).length :=
      (chainCatalogue n).types.nodup_keys.length_le_of_subset inside
    rwa [List.length_map, List.length_range] at few
  have first : 0 < (chainCatalogue n).types.values.countP TypeEntry.isPublic := by
    rw [List.countP_pos_iff]
    refine ⟨TypeEntry.ofDoclet (link n 0) {}, OrderedMap.mem_values_iff.2 ⟨knot 0, ?_⟩, ?_⟩
    · exact resolve?_chain.2 ⟨0, Nat.zero_le n, rfl, rfl⟩
    · rw [isPublic_link]
      rfl
  have split := countP_isPublic_add_hiddenCount (chainCatalogue n)
  omega

/-! ## The closure of a chain -/

/-- A moment of the closure of a chain at which the classes up to a given one are public, and what
that one mentions is pending. -/
structure Reached (n j : Nat) (s : State) : Prop where
  onlyPublishes : (chainCatalogue n).OnlyPublishes s.catalogue
  shown : ∀ i ≤ n, knot i ∈ publicNames s.catalogue ↔ i ≤ j
  pending : s.pending.names = [knot (next n j)]

/-- At the start, the first class is reached. -/
theorem startOf_reached (n : Nat) : Reached n 0 (startOf {} (chainCatalogue n)) where
  onlyPublishes := .refl _
  shown i inside := (mem_publicNames_chain inside).trans Nat.le_zero.symm
  pending := by
    have mentioned : ∀ name, name ∈ (startOf {} (chainCatalogue n)).pending.names ↔
        name ∈ [knot (next n 0)] := by
      intro name
      rw [← recorded_link]
      refine mem_firstPending.trans ?_
      show (∃ d ∈ (chainCatalogue n).emitted, _) ↔ _
      simp only [mem_emitted_chain, exists_eq_left]
    exact List.perm_singleton.1 ((List.perm_ext_iff_of_nodup
      (startOf {} (chainCatalogue n)).pending.nodup (List.pairwise_singleton _ _)).2 mentioned)

/-- **A pass gets one class further.** -/
theorem Reached.pass {n j : Nat} {s : State} (h : Reached n j s) (more : j < n) :
    Reached n (j + 1) (pass {} s) := by
  have keyedNow := h.onlyPublishes.keyedByLongname (keyed_chain n)
  obtain ⟨e, found, raised⟩ := h.onlyPublishes.raised (knot (j + 1)) _
    (resolve?_chain.2 ⟨j + 1, more, rfl, rfl⟩)
  have hidden : e.isPublic = false := by
    by_contra shown
    have reached := (h.shown (j + 1) more).1
      ((mem_publicNames keyedNow).2 ⟨e, found, by simpa using shown⟩)
    omega
  have pending : s.pending.names = [knot (j + 1)] := by
    rw [h.pending, next, if_pos more]
  have step : Surface.pass {} s = { s.hoist (knot (j + 1)) with
      pending := e.publish.toDeclaration.collect {} (s.pending.remove (knot (j + 1))) } := by
    unfold Surface.pass
    rw [pending, List.foldl_cons, List.foldl_nil, lookUp_of_hidden {} found hidden]
  have nothingElse : s.pending.remove (knot (j + 1)) = .empty := by
    apply References.ext
    show s.pending.names.filter _ = []
    rw [pending]
    simp
  rw [step]
  refine ⟨h.onlyPublishes.trans (.publish _ _), ?_, ?_⟩
  · intro i inside
    refine (mem_publicNames_publish keyedNow found).trans ?_
    rw [h.shown i inside]
    constructor
    · rintro (before | here)
      · omega
      · exact Nat.le_of_eq (knot_inj here)
    · intro reached
      rcases Nat.lt_or_eq_of_le reached with before | rfl
      · exact Or.inl (Nat.le_of_lt_succ before)
      · exact Or.inr rfl
  · show (e.publish.toDeclaration.collect {} (s.pending.remove (knot (j + 1)))).names = _
    rw [nothingElse, ← recorded_link]
    exact (raised.trans (.publish e)).recorded_toDeclaration {}

theorem reached_iterate (n : Nat) {j : Nat} (inside : j ≤ n) :
    Reached n j ((pass {})^[j] (startOf {} (chainCatalogue n))) := by
  induction j with
  | zero => exact startOf_reached n
  | succ j ih =>
    rw [Function.iterate_succ_apply']
    exact (ih (Nat.le_of_succ_le inside)).pass inside

/-- **The closure of a chain takes as many passes as the bound allows.** -/
theorem passes_chain (n : Nat) :
    hiddenCount (forcePublic {} { catalogue := chainCatalogue n }).catalogue = n ∧
      (close {} (chainCatalogue n)).2.passes = n + 1 := by
  rw [passes_close]
  show hiddenCount (startOf {} (chainCatalogue n)).catalogue = n ∧ _
  have few := passes_le {} (chainCatalogue n)
  have hidden : hiddenCount (startOf {} (chainCatalogue n)).catalogue ≤ n := hiddenCount_chain n
  have many : n < (run {} (chainCatalogue n)).2 := by
    by_contra early
    -- After so few passes some name is still pending.
    have reached := reached_iterate n (Nat.le_of_not_lt early)
    have pending := reached.pending
    rw [show _ = References.empty from (passes_isLeast {} (chainCatalogue n)).1] at pending
    cases pending
  omega

/-! ## The passes of a closure -/

/-- **The passes come to an end, and there are few of them.** The number of passes that is reported
is the first one after which no name is pending, and what is reported is read off that moment. Each
pass but the last one makes a type public that was hidden, so there is one more at most than the
longnames that passes make public, and one more at most than the types that the configuration leaves
hidden. There is none exactly if neither the added types nor what is public then mentions a name.
For any number of hidden types, the bound is reached by some records. -/
theorem close_terminates :
    (∀ (c : Config) (k : Catalogue),
      let forced := forcePublic c { catalogue := k }
      let (closed, report) := close c k
      let final := (pass c)^[report.passes] (startOf c k)
      IsLeast {n | ((pass c)^[n] (startOf c k)).pending = .empty} report.passes ∧
      (closed = final.catalogue ∧ report.hoisted = final.hoisted ∧
        report.unresolved = final.unresolved.names ∧ report.findings = final.findings) ∧
      (∃ inside, report.hoisted = forced.hoisted ++ inside ∧
        report.passes ≤ inside.length + 1 ∧
        hiddenCount closed + inside.length = hiddenCount forced.catalogue) ∧
      report.passes ≤ hiddenCount forced.catalogue + 1 ∧
      (report.passes = 0 ↔ ∀ d ∈ forced.catalogue.emitted, d.recorded c = [])) ∧
    ∀ n, ∃ (c : Config) (ds : List Doclet),
      let k := (Catalogue.build c ds).1
      hiddenCount (forcePublic c { catalogue := k }).catalogue = n ∧
        (close c k).2.passes = n + 1 := by
  refine ⟨?_, fun n => ⟨{}, chain n, passes_chain n⟩⟩
  intro c k forced
  have last : (run c k).1 = (pass c)^[(run c k).2] (startOf c k) := runPasses_eq_iterate c _ _
  obtain ⟨inside, hoists, few⟩ := runPasses_hoists c
    (hiddenCount (startOf c k).catalogue + 1) (startOf c k)
  refine ⟨passes_isLeast c k, ?_, ⟨inside, hoists.hoisted, few, hoists.hidden⟩, passes_le c k,
    passes_eq_zero_iff c k⟩
  exact ⟨congrArg State.catalogue last, congrArg State.hoisted last,
    congrArg (fun s => s.unresolved.names) last, congrArg State.findings last⟩

end Surface

end Ambient
