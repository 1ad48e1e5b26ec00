/-!
# Maps that remember insertion order

A map from strings that lists its entries in the order in which their keys first came in. Putting a
value under a key that is already there keeps the key's place.

## Main definitions

* `OrderedMap`: the entries, with pairwise distinct keys.
* `OrderedMap.get?`, `OrderedMap.insert`, `OrderedMap.modify`: look up, put and change in place.
* `OrderedMap.ofList`: the map that results from putting the entries of a list one by one.

## Design notes

Distinctness of the keys is a field of the type, so two maps are equal exactly when they list the
same entries. Every operation is stated through `entries`, and its effect on `keys` and on `get?` is
given by a lemma beside it.
-/

namespace Ambient

/-- Entries in insertion order, with pairwise distinct keys. -/
structure OrderedMap (α : Type) where
  /-- The entries, oldest key first. -/
  entries : List (String × α)
  /-- No key occurs twice. -/
  nodup_keys : (entries.map Prod.fst).Nodup

namespace OrderedMap

variable {α β : Type}

@[ext] theorem ext {m n : OrderedMap α} (h : m.entries = n.entries) : m = n := by
  cases m; cases n; cases h; rfl

instance [DecidableEq α] : DecidableEq (OrderedMap α) := fun m n =>
  if h : m.entries = n.entries then isTrue (ext h) else isFalse fun e => h (e ▸ rfl)

/-- The map without entries. -/
def empty : OrderedMap α := ⟨[], List.nodup_nil⟩

instance : EmptyCollection (OrderedMap α) := ⟨empty⟩

instance : Inhabited (OrderedMap α) := ⟨empty⟩

/-- The keys, oldest first. -/
def keys (m : OrderedMap α) : List String := m.entries.map Prod.fst

/-- The values, in the order of their keys. -/
def values (m : OrderedMap α) : List α := m.entries.map Prod.snd

/-- The number of entries. -/
def size (m : OrderedMap α) : Nat := m.entries.length

/-- Whether there is no entry. -/
def isEmpty (m : OrderedMap α) : Bool := m.entries.isEmpty

/-- The value under a key. -/
def get? (m : OrderedMap α) (key : String) : Option α := m.entries.lookup key

/-- Whether the key has an entry. -/
def contains (m : OrderedMap α) (key : String) : Bool := (m.get? key).isSome

/-- The value under a key replaced, wherever the key occurs in a list of entries. -/
def update (f : α → α) (key : String) : List (String × α) → List (String × α) :=
  List.map fun entry => if entry.1 = key then (entry.1, f entry.2) else entry

@[simp] theorem keys_update (f : α → α) (key : String) (entries : List (String × α)) :
    (update f key entries).map Prod.fst = entries.map Prod.fst := by
  induction entries with
  | nil => rfl
  | cons entry rest ih =>
    simp only [update, List.map_cons, List.map_map] at ih ⊢
    rw [ih]
    split <;> rfl

theorem lookup_eq_none_iff {entries : List (String × α)} {key : String} :
    entries.lookup key = none ↔ key ∉ entries.map Prod.fst := by
  induction entries with
  | nil => simp
  | cons entry rest ih =>
    obtain ⟨k, v⟩ := entry
    by_cases h : key = k
    · simp [h]
    · have differs : (key == k) = false := by simp [h]
      simp [List.lookup_cons, differs, h, ih]

theorem contains_iff {m : OrderedMap α} {key : String} :
    m.contains key = true ↔ key ∈ m.keys := by
  have h : m.entries.lookup key = none ↔ key ∉ m.entries.map Prod.fst := lookup_eq_none_iff
  unfold contains get? keys
  cases found : m.entries.lookup key <;> simp_all

/-- Change the value under a key, if it has one. -/
def modify (m : OrderedMap α) (key : String) (f : α → α) : OrderedMap α where
  entries := update f key m.entries
  nodup_keys := by rw [keys_update]; exact m.nodup_keys

/-- Put a value under a key: in the place of the old one, else at the end. -/
def insert (m : OrderedMap α) (key : String) (value : α) : OrderedMap α :=
  if h : m.contains key then m.modify key fun _ => value
  else
    { entries := m.entries ++ [(key, value)]
      nodup_keys := by
        have absent : key ∉ m.entries.map Prod.fst := fun mem => h (contains_iff.2 mem)
        rw [List.map_append, List.nodup_append]
        refine ⟨m.nodup_keys, by simp, ?_⟩
        intro a ha b hb
        simp only [List.map_cons, List.map_nil, List.mem_singleton] at hb
        rintro rfl
        exact absent (hb ▸ ha) }

/-- The map that results from putting the entries of a list one by one. -/
def ofList (entries : List (String × α)) : OrderedMap α :=
  entries.foldl (fun m entry => m.insert entry.1 entry.2) empty

/-- The same keys with mapped values. -/
def mapValues (f : α → β) (m : OrderedMap α) : OrderedMap β where
  entries := m.entries.map fun entry => (entry.1, f entry.2)
  nodup_keys := by
    rw [List.map_map]
    exact m.nodup_keys

@[simp] theorem keys_modify (m : OrderedMap α) (key : String) (f : α → α) :
    (m.modify key f).keys = m.keys := keys_update f key m.entries

theorem entries_insert_of_not_contains {m : OrderedMap α} {key : String} {value : α}
    (h : m.contains key = false) : (m.insert key value).entries = m.entries ++ [(key, value)] := by
  simp [insert, h]

/-- The keys after putting a value: a new key goes to the end. -/
theorem keys_insert (m : OrderedMap α) (key : String) (value : α) :
    (m.insert key value).keys = if m.contains key then m.keys else m.keys ++ [key] := by
  unfold insert
  split
  · simp_all
  · simp_all [keys]

@[simp] theorem keys_mapValues (f : α → β) (m : OrderedMap α) :
    (m.mapValues f).keys = m.keys := by
  simp [keys, mapValues, List.map_map, Function.comp_def]

end OrderedMap

end Ambient
