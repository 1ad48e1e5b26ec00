import Ambient.OrderedMap
import Mathlib.Data.List.Basic
import Mathlib.Data.List.Forall2
/-!
# Laws of maps that remember insertion order

A map is its keys, in order, and what it holds under each of them. The laws say what a change of one
value does to both.

## Main statements

* `OrderedMap.get?_eq_some_iff`: looking up finds the entries.
* `OrderedMap.flatMap_values`: the values are what is found under the keys, in order.
* `OrderedMap.get?_modify`, `OrderedMap.get?_insert`: a change of one value shows under its key
  only.
* `OrderedMap.forall₂_modify`: the same change keeps maps related.
* `OrderedMap.countP_values_modify`: counting the values after a change of one of them.
* `OrderedMap.ofList_entries`: putting the entries of a map one by one gives the map.
-/

namespace Ambient.OrderedMap

variable {α : Type}

/-! ## Looking up -/

/-- Looking up finds exactly the entries. -/
theorem get?_eq_some_iff {m : OrderedMap α} {key : String} {value : α} :
    m.get? key = some value ↔ (key, value) ∈ m.entries := by
  have distinct := m.nodup_keys
  unfold get?
  generalize m.entries = entries at distinct
  induction entries with
  | nil => simp
  | cons entry rest ih =>
    obtain ⟨k, v⟩ := entry
    rw [List.map_cons, List.nodup_cons] at distinct
    by_cases same : key = k
    · subst same
      have absent : (key, value) ∉ rest := fun mem => distinct.1 (List.mem_map.2 ⟨_, mem, rfl⟩)
      simp [absent, eq_comm]
    · have differs : (key == k) = false := by simp [same]
      rw [List.lookup_cons, differs, List.mem_cons]
      simp [ih distinct.2, same]

theorem mem_values_iff {m : OrderedMap α} {value : α} :
    value ∈ m.values ↔ ∃ key, m.get? key = some value := by
  simp [values, get?_eq_some_iff]

theorem mem_keys_iff {m : OrderedMap α} {key : String} :
    key ∈ m.keys ↔ ∃ value, m.get? key = some value := by
  simp [keys, get?_eq_some_iff]

theorem get?_eq_none_iff {m : OrderedMap α} {key : String} :
    m.get? key = none ↔ key ∉ m.keys :=
  lookup_eq_none_iff

/-- Looking up the keys one after another gives the values. -/
theorem flatMap_values {β : Type} (m : OrderedMap α) (f : α → List β) :
    m.values.flatMap f = m.keys.flatMap fun key => (m.get? key).elim [] f := by
  unfold values keys
  rw [List.flatMap_map, List.flatMap_map]
  refine List.flatMap_congr fun entry mem => ?_
  rw [get?_eq_some_iff.2 mem]
  rfl

/-- If every value tells its key, the values tell the keys in order. -/
theorem map_values_eq_keys {m : OrderedMap α} {name : α → String}
    (keyed : ∀ key value, m.get? key = some value → name value = key) :
    m.values.map name = m.keys := by
  unfold values keys
  rw [List.map_map]
  exact List.map_congr_left fun entry mem => keyed entry.1 entry.2 (get?_eq_some_iff.2 mem)

theorem length_values (m : OrderedMap α) : m.values.length = m.keys.length := by
  simp [values, keys]

/-! ## Changing one value -/

/-- A changed value shows under its key only. -/
theorem get?_modify (m : OrderedMap α) (key : String) (f : α → α) (other : String) :
    (m.modify key f).get? other = if other = key then (m.get? other).map f else m.get? other := by
  show (update f key m.entries).lookup other = _
  unfold get?
  generalize m.entries = entries
  induction entries with
  | nil => simp [update]
  | cons entry rest ih =>
    obtain ⟨k, v⟩ := entry
    show ((if k = key then (k, f v) else (k, v)) :: update f key rest).lookup other = _
    by_cases here : other = k
    · subst here
      by_cases changed : other = key <;> simp [changed]
    · have differs : (other == k) = false := by simp [here]
      by_cases changed : k = key
      · simpa [changed, List.lookup_cons, changed ▸ differs] using ih
      · simpa [changed, List.lookup_cons, differs] using ih

theorem get?_insert_of_not_contains {m : OrderedMap α} {key : String} {value : α}
    (new : m.contains key = false) (other : String) :
    (m.insert key value).get? other = if other = key then some value else m.get? other := by
  unfold get?
  rw [entries_insert_of_not_contains new, List.lookup_append]
  by_cases same : other = key
  · subst same
    have absent : m.get? other = none := by simpa [contains] using new
    unfold get? at absent
    simp [absent]
  · have differs : (other == key) = false := by simp [same]
    simp [List.lookup_cons, differs, same]

/-- A value that is put in shows under its key only, whatever was there. -/
theorem get?_insert (m : OrderedMap α) (key : String) (value : α) (other : String) :
    (m.insert key value).get? other = if other = key then some value else m.get? other := by
  by_cases known : m.contains key = true
  · have inPlace : m.insert key value = m.modify key fun _ => value := by simp [insert, known]
    rw [inPlace, get?_modify]
    by_cases here : other = key
    · subst here
      obtain ⟨old, found⟩ := Option.isSome_iff_exists.1 known
      rw [if_pos rfl, if_pos rfl, found, Option.map_some]
    · rw [if_neg here, if_neg here]
  · exact get?_insert_of_not_contains (by simpa using known) other

/-- The same change under a key of two maps whose entries are related. -/
theorem forall₂_modify {R : String × α → String × α → Prop} (keys : ∀ x y, R x y → y.1 = x.1)
    {m m' : OrderedMap α} (h : List.Forall₂ R m.entries m'.entries) {key : String} {f f' : α → α}
    (kept : ∀ v v', m.get? key = some v → R (key, v) (key, v') → R (key, f v) (key, f' v')) :
    List.Forall₂ R (m.modify key f).entries (m'.modify key f').entries := by
  have related := (List.forall₂_and_left m.entries _).2 ⟨fun _ mem => mem, h⟩
  refine List.rel_map ?_ related
  rintro ⟨k, v⟩ ⟨k', v'⟩ ⟨mem, entries⟩
  obtain rfl : k' = k := keys _ _ entries
  by_cases here : k' = key
  · subst here
    simpa using kept v v' (get?_eq_some_iff.2 mem) entries
  · simpa [here] using entries

/-- Counting the values after a change of one that counted and does so no more. -/
theorem countP_values_modify {m : OrderedMap α} {key : String} {f : α → α} {p : α → Bool}
    {value : α} (found : m.get? key = some value) (before : p value = true)
    (after : p (f value) = false) :
    (m.modify key f).values.countP p + 1 = m.values.countP p := by
  have distinct := m.nodup_keys
  show ((update f key m.entries).map Prod.snd).countP p + 1 = (m.entries.map Prod.snd).countP p
  unfold get? at found
  generalize m.entries = entries at distinct found
  induction entries with
  | nil => simp at found
  | cons entry rest ih =>
    obtain ⟨k, v⟩ := entry
    rw [List.map_cons, List.nodup_cons] at distinct
    show (((if k = key then (k, f v) else (k, v)) :: update f key rest).map Prod.snd).countP p + 1
      = _
    by_cases here : key = k
    · subst here
      have same : v = value := by simpa using found
      subst same
      -- The key stands nowhere else, so the rest stays as it is.
      have rest_same : update f key rest = rest := by
        have keep : ∀ entry ∈ rest,
            (if entry.1 = key then (entry.1, f entry.2) else entry) = entry := by
          intro entry mem
          have other : entry.1 ≠ key := by
            rintro rfl
            exact distinct.1 (List.mem_map.2 ⟨_, mem, rfl⟩)
          rw [if_neg other]
        exact (List.map_congr_left keep).trans (List.map_id' rest)
      simp [rest_same, before, after]
    · have differs : (key == k) = false := by simp [here]
      rw [List.lookup_cons, differs] at found
      have fewer := ih distinct.2 found
      rw [if_neg (Ne.symm here)]
      simp only [List.map_cons, List.countP_cons]
      omega

/-! ## Putting entries one by one -/

theorem entries_foldl_insert {m : OrderedMap α} {entries : List (String × α)}
    (distinct : ((m.entries ++ entries).map Prod.fst).Nodup) :
    (entries.foldl (fun m entry => m.insert entry.1 entry.2) m).entries = m.entries ++ entries := by
  induction entries generalizing m with
  | nil => exact (List.append_nil m.entries).symm
  | cons entry rest ih =>
    have new : m.contains entry.1 = false := by
      rw [List.map_append, List.map_cons, List.nodup_append] at distinct
      refine Bool.eq_false_iff.2 fun known => ?_
      exact distinct.2.2 _ (contains_iff.1 known) _ List.mem_cons_self rfl
    have added : (m.insert entry.1 entry.2).entries = m.entries ++ [(entry.1, entry.2)] :=
      entries_insert_of_not_contains new
    rw [List.foldl_cons, ih (by rw [added]; simpa using distinct), added, List.append_assoc]
    rfl

/-- Putting the entries of a map one by one gives the map. -/
theorem ofList_entries (m : OrderedMap α) : ofList m.entries = m :=
  ext (entries_foldl_insert (m := empty) m.nodup_keys)

end Ambient.OrderedMap
