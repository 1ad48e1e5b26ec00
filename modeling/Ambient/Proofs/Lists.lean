import Mathlib.Data.List.Forall2
import Mathlib.Data.List.Induction
import Mathlib.Data.List.Nodup
/-!
# Lists of entries, and lists in the order of first use

## Main statements

* `Lists.lookup_cons`: looking up goes from one entry to the next.
* `Lists.lookup_filter_keys`: only kept keys are found among the entries whose keys are kept.
* `Lists.lookup_forall₂`: related values are found in related lists.
* `Lists.forall₂_of_keys`: lists with related values under the same keys.
* `Lists.flatMap_filter`: going through what is kept is going through everything.
* `Lists.forall₂_filter`: related lists are related in what is kept of them.
* `Lists.forall₂_and`: two relations between the same lists.
* `Lists.map_eq_of_forall₂`, `Lists.filterMap_eq_of_forall₂`: what is read off related elements
  alike.
* `Lists.flatMap_filter_perm`: sorting out by keys leaves every element there once.
* `Lists.filter_eq_toList_find?`: of distinct keys each one is found at most once.
* `Lists.eraseDups_concat`: one more element is kept if it is new.
* `Lists.nodup_eraseDups`: what is kept has no repetition.
-/

namespace Ambient.Lists

/-! ## Looking up -/

/-- Looking up goes from one entry to the next. -/
theorem lookup_cons {β : Type} (k : String) (v : β) (rest : List (String × β)) (key : String) :
    ((k, v) :: rest).lookup key = if key = k then some v else rest.lookup key := by
  rw [List.lookup_cons]
  by_cases same : key = k
  · simp [same]
  · have differs : (key == k) = false := by simpa using same
    simp [same, differs]

/-- Among the entries whose keys are kept only kept keys are found. -/
theorem lookup_filter_keys {β : Type} (kept : String → Bool) (entries : List (String × β))
    (key : String) :
    (entries.filter fun entry => kept entry.1).lookup key =
      if kept key then entries.lookup key else none := by
  induction entries with
  | nil => simp
  | cons entry rest ih =>
    obtain ⟨k, v⟩ := entry
    rw [List.filter_cons, lookup_cons]
    by_cases same : key = k
    · subst same
      by_cases here : kept key = true
      · simp [here]
      · simp [here, ih]
    · by_cases here : kept k = true
      · simp [here, lookup_cons, same, ih]
      · simp [here, same, ih]

/-- In related lists with the same keys, related values stand under a key, or none. -/
theorem lookup_forall₂ {β γ : Type} {R : String × β → String × γ → Prop}
    (keys : ∀ x y, R x y → y.1 = x.1) {xs : List (String × β)} {ys : List (String × γ)}
    (h : List.Forall₂ R xs ys) (key : String) :
    (xs.lookup key = none ∧ ys.lookup key = none) ∨
    ∃ v w, xs.lookup key = some v ∧ ys.lookup key = some w ∧ R (key, v) (key, w) := by
  induction h with
  | nil => exact Or.inl ⟨rfl, rfl⟩
  | @cons x y xs ys related _ ih =>
    obtain ⟨k, v⟩ := x
    obtain ⟨k', w⟩ := y
    obtain rfl : k' = k := keys _ _ related
    rw [lookup_cons, lookup_cons]
    by_cases here : key = k'
    · rw [if_pos here, if_pos here]
      subst here
      exact Or.inr ⟨v, w, rfl, rfl, related⟩
    · rw [if_neg here, if_neg here]
      exact ih

/-- Lists with the same keys are related if what they hold under each key is. -/
theorem forall₂_of_keys {β γ : Type} {R : String × β → String × γ → Prop} {xs : List (String × β)}
    {ys : List (String × γ)} (keys : ys.map Prod.fst = xs.map Prod.fst)
    (related : ∀ key v w, (key, v) ∈ xs → (key, w) ∈ ys → R (key, v) (key, w)) :
    List.Forall₂ R xs ys := by
  induction xs generalizing ys with
  | nil =>
    obtain rfl : ys = [] := List.map_eq_nil_iff.1 keys
    exact List.Forall₂.nil
  | cons x xs ih =>
    cases ys with
    | nil => cases keys
    | cons y ys =>
      obtain ⟨key, v⟩ := x
      obtain ⟨key', w⟩ := y
      rw [List.map_cons, List.map_cons, List.cons.injEq] at keys
      obtain ⟨same, rest⟩ := keys
      obtain rfl : key' = key := same
      refine List.Forall₂.cons (related key' v w List.mem_cons_self List.mem_cons_self) ?_
      refine ih rest fun key v w mem mem' => ?_
      exact related key v w (List.mem_cons_of_mem _ mem) (List.mem_cons_of_mem _ mem')

/-! ## Going through what is kept -/

/-- What is read off the elements that are kept, one after another. -/
theorem flatMap_filter {α β : Type} (p : α → Bool) (f : α → List β) (xs : List α) :
    (xs.filter p).flatMap f = xs.flatMap fun x => if p x then f x else [] := by
  induction xs with
  | nil => rfl
  | cons x rest ih =>
    rw [List.flatMap_cons, ← ih]
    by_cases kept : p x = true
    · rw [List.filter_cons_of_pos kept, if_pos kept, List.flatMap_cons]
    · rw [List.filter_cons_of_neg kept, if_neg kept, List.nil_append]

/-- Related lists are related in what is kept of them, if the same is kept of both. -/
theorem forall₂_filter {α β : Type} {R : α → β → Prop} {p : α → Bool} {q : β → Bool}
    (alike : ∀ x y, R x y → q y = p x) {xs : List α} {ys : List β} (h : List.Forall₂ R xs ys) :
    List.Forall₂ (fun x y => R x y ∧ p x = true) (xs.filter p) (ys.filter q) := by
  induction h with
  | nil => exact List.Forall₂.nil
  | @cons x y xs ys related _ ih =>
    by_cases kept : p x = true
    · have kept' : q y = true := (alike x y related).trans kept
      rw [List.filter_cons_of_pos kept, List.filter_cons_of_pos kept']
      exact List.Forall₂.cons ⟨related, kept⟩ ih
    · have kept' : ¬ q y = true := by rwa [alike x y related]
      rw [List.filter_cons_of_neg kept, List.filter_cons_of_neg kept']
      exact ih

/-- Lists that are related in two ways are so in both at once. -/
theorem forall₂_and {α β : Type} {R S : α → β → Prop} {xs : List α} {ys : List β}
    (h : List.Forall₂ R xs ys) (h' : List.Forall₂ S xs ys) :
    List.Forall₂ (fun x y => R x y ∧ S x y) xs ys := by
  induction h with
  | nil => exact List.Forall₂.nil
  | cons first _ ih =>
    obtain _ | ⟨first', rest'⟩ := h'
    exact List.Forall₂.cons ⟨first, first'⟩ (ih rest')

/-- What is read off related elements alike is the same for related lists. -/
theorem map_eq_of_forall₂ {α β γ : Type} {R : α → β → Prop} {f : α → γ} {g : β → γ}
    (alike : ∀ x y, R x y → g y = f x) {xs : List α} {ys : List β} (h : List.Forall₂ R xs ys) :
    ys.map g = xs.map f := by
  induction h with
  | nil => rfl
  | cons related _ ih => rw [List.map_cons, List.map_cons, alike _ _ related, ih]

theorem filterMap_eq_of_forall₂ {α β γ : Type} {R : α → β → Prop} {f : α → Option γ}
    {g : β → Option γ} (alike : ∀ x y, R x y → g y = f x) {xs : List α} {ys : List β}
    (h : List.Forall₂ R xs ys) : ys.filterMap g = xs.filterMap f := by
  induction h with
  | nil => rfl
  | cons related _ ih => rw [List.filterMap_cons, List.filterMap_cons, alike _ _ related, ih]

/-! ## Sorting out by a key -/

/-- Sorted out by distinct keys, with those of no key at the end, all elements are there once. -/
theorem flatMap_filter_perm {α κ : Type} [DecidableEq κ] (key : α → κ) {keys : List κ}
    (distinct : keys.Nodup) (xs : List α) :
    (keys.flatMap (fun k => xs.filter fun x => key x = k) ++
      xs.filter fun x => key x ∉ keys).Perm xs := by
  induction keys generalizing xs with
  | nil => simp
  | cons k rest ih =>
    rw [List.nodup_cons] at distinct
    -- What does not have the first key is sorted out by the other ones.
    have others := ih distinct.2 (xs.filter fun x => !decide (key x = k))
    have sameKeys : rest.flatMap (fun k' => (xs.filter fun x => !decide (key x = k)).filter
        fun x => key x = k') = rest.flatMap fun k' => xs.filter fun x => key x = k' := by
      refine List.flatMap_congr fun k' mem => ?_
      have apart : k' ≠ k := fun same => distinct.1 (same ▸ mem)
      rw [List.filter_filter]
      refine List.filter_congr fun x _ => ?_
      by_cases here : key x = k' <;> simp [here, apart]
    have sameRest : (xs.filter fun x => !decide (key x = k)).filter (fun x => key x ∉ rest) =
        xs.filter fun x => key x ∉ k :: rest := by
      rw [List.filter_filter]
      refine List.filter_congr fun x _ => ?_
      by_cases here : key x = k <;> simp [here]
    rw [sameKeys, sameRest] at others
    rw [List.flatMap_cons, List.append_assoc]
    exact (others.append_left _).trans (List.filter_append_perm _ xs)

/-- Among elements with distinct keys, those with a given key are the first one, if there is one. -/
theorem filter_eq_toList_find? {α κ : Type} [DecidableEq κ] (key : α → κ) {xs : List α}
    (distinct : (xs.map key).Nodup) (k : κ) :
    (xs.filter fun x => key x = k) = (xs.find? fun x => key x = k).toList := by
  induction xs with
  | nil => rfl
  | cons x rest ih =>
    rw [List.map_cons, List.nodup_cons] at distinct
    by_cases here : key x = k
    · have others : (rest.filter fun x => key x = k) = [] := by
        rw [List.filter_eq_nil_iff]
        intro y mem same
        exact distinct.1 (here.trans (of_decide_eq_true same).symm ▸ List.mem_map_of_mem mem)
      rw [List.filter_cons_of_pos (by simpa using here), List.find?_cons_of_pos
        (by simpa using here), others]
      rfl
    · rw [List.filter_cons_of_neg (by simpa using here), List.find?_cons_of_neg
        (by simpa using here), ih distinct.2]

/-! ## The order of first use -/

variable {α : Type} [DecidableEq α]

/-- One more element is kept if it is new. -/
theorem eraseDups_concat (xs : List α) (x : α) :
    (xs ++ [x]).eraseDups = if x ∈ xs then xs.eraseDups else xs.eraseDups ++ [x] := by
  rw [List.eraseDups_append]
  by_cases old : x ∈ xs
  · simp [List.removeAll, old]
  · simp [List.removeAll, List.eraseDups_cons, old]

/-- What is kept has no repetition. -/
theorem nodup_eraseDups (xs : List α) : xs.eraseDups.Nodup := by
  induction xs using List.reverseRecOn with
  | nil => exact List.nodup_nil
  | append_singleton xs x ih =>
    rw [eraseDups_concat]
    by_cases old : x ∈ xs
    · rw [if_pos old]
      exact ih
    · rw [if_neg old, ← List.concat_eq_append]
      exact List.Nodup.concat (fun kept => old (List.mem_eraseDups.1 kept)) ih

end Ambient.Lists
