import Ambient.Proofs.Lists
import Ambient.References
/-!
# Laws of sets of referenced names

Names come into a set one by one, and each keeps the place of its first time. So a set that was
filled from a list is the list with later repetitions left out, and it does not matter whether the
names of an inner declaration are first put into a set of their own and freed of placeholders there,
or freed of placeholders and put into the outer set right away.

## Main statements

* `References.names_insertAll`: putting in a list of names appends the new ones, in the order of
  their first occurrence.
* `References.insertAll_of_subset`: known names change nothing.
* `References.insertAll_perm`: lists with the same names fill a set with the same names.
* `References.insertFree_insertAll`: leaving out placeholders commutes with collecting.
* `References.addAll_eq_insertAll`: collecting is putting in what is accepted.
-/

namespace Ambient.References

/-! ## Putting in one name -/

theorem names_insert (r : References) (name : String) :
    (r.insert name).names = if name ∈ r.names then r.names else r.names ++ [name] := by
  unfold insert
  split <;> rfl

theorem insert_of_mem {r : References} {name : String} (h : name ∈ r.names) :
    r.insert name = r := by
  unfold insert
  rw [dif_pos h]

@[simp] theorem not_mem_empty (name : String) : name ∉ empty.names := by
  exact List.not_mem_nil

@[simp] theorem mem_remove {r : References} {name other : String} :
    other ∈ (r.remove name).names ↔ other ∈ r.names ∧ other ≠ name := by
  simp [remove]

theorem contains_iff {r : References} {name : String} :
    r.contains name = true ↔ name ∈ r.names := by
  simp [contains]

/-- A set without names is the empty set. -/
theorem eq_empty_of_isEmpty {r : References} (h : r.isEmpty = true) : r = empty := by
  apply ext
  exact List.isEmpty_iff.1 h

/-! ## Putting in a list of names -/

@[simp] theorem insertAll_nil (r : References) : r.insertAll [] = r := rfl

@[simp] theorem insertAll_cons (r : References) (name : String) (names : List String) :
    r.insertAll (name :: names) = (r.insert name).insertAll names := rfl

theorem insertAll_append (r : References) (first second : List String) :
    r.insertAll (first ++ second) = (r.insertAll first).insertAll second :=
  List.foldl_append

theorem insertAll_concat (r : References) (names : List String) (name : String) :
    r.insertAll (names ++ [name]) = (r.insertAll names).insert name :=
  insertAll_append r names [name]

@[simp] theorem mem_insertAll {r : References} {names : List String} {name : String} :
    name ∈ (r.insertAll names).names ↔ name ∈ r.names ∨ name ∈ names := by
  induction names generalizing r with
  | nil => simp
  | cons first rest ih =>
    rw [insertAll_cons, ih, mem_insert, List.mem_cons, or_assoc]

/-- Putting in names only appends. -/
theorem names_isPrefixOf_insertAll (r : References) (names : List String) :
    r.names <+: (r.insertAll names).names := by
  induction names generalizing r with
  | nil => exact List.prefix_refl _
  | cons first rest ih =>
    exact (names_isPrefixOf_insert r first).trans (ih (r.insert first))

/-- **Putting in names appends the new ones**, in the order of their first occurrence. -/
theorem names_insertAll (r : References) (names : List String) :
    (r.insertAll names).names =
      r.names ++ names.eraseDups.filter fun name => !r.names.contains name := by
  induction names using List.reverseRecOn with
  | nil => exact (List.append_nil _).symm
  | append_singleton names name ih =>
    rw [insertAll_concat, names_insert, Lists.eraseDups_concat]
    by_cases repeated : name ∈ names
    · rw [if_pos repeated, if_pos (mem_insertAll.2 (Or.inr repeated)), ih]
    · rw [if_neg repeated, List.filter_append, ← List.append_assoc, ← ih]
      by_cases old : name ∈ r.names
      · rw [if_pos (mem_insertAll.2 (Or.inl old))]
        simp [old]
      · rw [if_neg fun mem => (mem_insertAll.1 mem).elim old repeated]
        simp [old]

/-- Later repetitions of a list make no difference to the set that it fills. -/
theorem names_insertAll_empty (names : List String) :
    (empty.insertAll names).names = names.eraseDups := by
  rw [names_insertAll]
  exact List.filter_eq_self.2 fun _ _ => rfl

/-- Known names change nothing. -/
theorem insertAll_of_subset {r : References} {names : List String} (known : names ⊆ r.names) :
    r.insertAll names = r := by
  induction names with
  | nil => rfl
  | cons first rest ih =>
    rw [insertAll_cons, insert_of_mem (known List.mem_cons_self)]
    exact ih fun _ mem => known (List.mem_cons_of_mem _ mem)

/-- Lists with the same names, in whatever order and however often each, fill a set with the same
names. -/
theorem insertAll_perm (r : References) {first second : List String}
    (same : ∀ name, name ∈ first ↔ name ∈ second) :
    (r.insertAll first).names.Perm (r.insertAll second).names := by
  rw [List.perm_ext_iff_of_nodup (r.insertAll first).nodup (r.insertAll second).nodup]
  intro name
  rw [mem_insertAll, mem_insertAll, same]

/-- What an inner set hands on is what it was filled with, placeholders left out. -/
theorem insertFree_insertAll (r : References) (names placeholders : List String) :
    r.insertFree (empty.insertAll names) placeholders =
      r.insertAll (names.filter fun name => !placeholders.contains name) := by
  unfold insertFree
  induction names using List.reverseRecOn with
  | nil => rfl
  | append_singleton names name ih =>
    rw [insertAll_concat, names_insert, List.filter_append, insertAll_append, ← ih]
    by_cases known : name ∈ (empty.insertAll names).names
    · -- A repetition adds nothing inside, and nothing outside either.
      rw [if_pos known, List.filter_cons, List.filter_nil]
      split
      · rename_i free
        have kept : name ∈ (empty.insertAll names).names.filter
            fun name => !placeholders.contains name := by
          rw [List.mem_filter]
          exact ⟨known, free⟩
        rw [insertAll_cons, insertAll_nil, insert_of_mem (mem_insertAll.2 (Or.inr kept))]
      · rw [insertAll_nil]
    · rw [if_neg known, List.filter_append, insertAll_append]

/-! ## Collecting -/

/-- The names among some that are collected, without their outer blanks. -/
def accepted (names : List String) : List String :=
  (names.map Text.trimmed).filter accepts

/-- Collecting is putting in what is accepted. -/
theorem addAll_eq_insertAll (r : References) (names : List String) :
    r.addAll names = r.insertAll (accepted names) := by
  induction names generalizing r with
  | nil => rfl
  | cons name names ih =>
    show (r.add name).addAll names = _
    rw [ih]
    unfold accepted
    rw [List.map_cons, List.filter_cons]
    by_cases fits : accepts (Text.trimmed name) = true
    · simp only [add, fits, if_true, insertAll_cons]
    · simp only [add, fits, if_false, Bool.false_eq_true]

/-- Only references that are no built-in types are accepted. -/
theorem accepts_iff {name : String} :
    accepts name = true ↔ name ∉ builtins ∧ isReference name = true := by
  simp [accepts]

end Ambient.References
