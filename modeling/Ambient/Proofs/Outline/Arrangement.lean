import Ambient.Outline
import Ambient.Proofs.Lists
import Ambient.Proofs.OrderedMap
/-!
# How the tree of modules is arranged

Declarations come into the tree one by one, and each one makes the levels on its way that are not
there yet. What results can be said without a run: a level holds the declarations of its address, in
the order in which they came in, and its inner levels are the ones that some address goes through.

## Main definitions

* `Declaration.address`: the keys that lead to the level of a declaration.
* `Place.atDepth`: where a level stands that some number of keys leads to.
* `Outline.typesAt`, `Outline.membersAt`, `Outline.childKeys`: what the level of some keys has to
  hold.
* `Outline.Arranged`: a level and everything inside holds just that.
* `Outline.contents`: all declarations of a tree, level by level.

## Main statements

* `Outline.Arranged.insertAt`: one more declaration leaves a tree arranged.
* `Outline.contents_insertAt`: it comes into the tree once, and nothing else changes.
* `Outline.ofDeclarations_partition`: what the tree of some declarations holds, and where.
-/

namespace Ambient

/-- The keys that lead to the level of a declaration. -/
def Declaration.address (d : Declaration) : List String :=
  Outline.keysOf d.modulePath

/-- Where a level stands that some number of keys leads to. -/
def Place.atDepth : Nat → Place
  | 0 => .global
  | 1 => .topModule
  | _ + 2 => .nestedModule

@[simp] theorem Place.inside_atDepth (depth : Nat) :
    (atDepth depth).inside = atDepth (depth + 1) := by
  match depth with
  | 0 => rfl
  | 1 => rfl
  | _ + 2 => rfl

namespace Outline

variable {ds : List Declaration} {d : Declaration} {keys : List String} {key : String}
  {t : Outline}

/-! ## What a level has to hold -/

/-- The types among some declarations that belong to the level of some keys. -/
def typesAt (keys : List String) (ds : List Declaration) : List Declaration :=
  ds.filter fun d => d.isType && d.address == keys

/-- The other declarations that belong to the level of some keys. -/
def membersAt (keys : List String) (ds : List Declaration) : List Declaration :=
  ds.filter fun d => !d.isType && d.address == keys

/-- The key after some keys on the way to an address that they are a part of. -/
def nextKey (keys address : List String) : Option String :=
  if keys <+: address then address[keys.length]? else none

/-- The keys of the levels inside the level of some keys, in the order of their first use. -/
def childKeys (keys : List String) (ds : List Declaration) : List String :=
  (ds.filterMap fun d => nextKey keys d.address).eraseDups

theorem mem_typesAt : d ∈ typesAt keys ds ↔ d ∈ ds ∧ d.isType = true ∧ d.address = keys := by
  simp [typesAt]

theorem mem_membersAt : d ∈ membersAt keys ds ↔ d ∈ ds ∧ d.isType = false ∧ d.address = keys := by
  simp [membersAt]

theorem nextKey_eq_some_iff {address : List String} :
    nextKey keys address = some key ↔ keys ++ [key] <+: address := by
  unfold nextKey
  by_cases onWay : keys <+: address
  · obtain ⟨rest, rfl⟩ := onWay
    rw [if_pos (List.prefix_append keys rest), List.prefix_append_right_inj]
    cases rest <;> simp [eq_comm]
  · have notFurther : ¬ keys ++ [key] <+: address :=
      fun further => onWay ((List.prefix_append keys [key]).trans further)
    simp [onWay, notFurther]

/-- A level has an inner level for a key if some address goes through it. -/
theorem mem_childKeys : key ∈ childKeys keys ds ↔ ∃ d ∈ ds, keys ++ [key] <+: d.address := by
  simp only [childKeys, List.mem_eraseDups, List.mem_filterMap, nextKey_eq_some_iff]

theorem nodup_childKeys (keys : List String) (ds : List Declaration) :
    (childKeys keys ds).Nodup :=
  Lists.nodup_eraseDups _

/-! ## One more declaration -/

theorem typesAt_concat (keys : List String) (ds : List Declaration) (d : Declaration) :
    typesAt keys (ds ++ [d]) =
      typesAt keys ds ++ if d.isType = true ∧ d.address = keys then [d] else [] := by
  unfold typesAt
  by_cases here : d.isType = true ∧ d.address = keys <;> simp [here]

theorem membersAt_concat (keys : List String) (ds : List Declaration) (d : Declaration) :
    membersAt keys (ds ++ [d]) =
      membersAt keys ds ++ if d.isType = false ∧ d.address = keys then [d] else [] := by
  unfold membersAt
  by_cases here : d.isType = false ∧ d.address = keys <;> simp [here]

/-- A declaration whose address does not go further than some keys uses no key after them. -/
theorem childKeys_concat_of_none (h : nextKey keys d.address = none) :
    childKeys keys (ds ++ [d]) = childKeys keys ds := by
  simp [childKeys, h]

/-- A key that is used for the first time comes last. -/
theorem childKeys_concat_of_some (h : nextKey keys d.address = some key) :
    childKeys keys (ds ++ [d]) =
      if key ∈ childKeys keys ds then childKeys keys ds else childKeys keys ds ++ [key] := by
  unfold childKeys
  rw [List.filterMap_append, List.filterMap_cons, h, List.filterMap_nil, Lists.eraseDups_concat]
  simp only [List.mem_eraseDups]

/-! ## Changing a child -/

section AlterChild

variable {fresh : Outline} {f : Outline → Outline} {name : String}

theorem keys_alterChild (children : List (String × Outline)) :
    (alterChild fresh f name children).map Prod.fst =
      if name ∈ children.map Prod.fst then children.map Prod.fst
      else children.map Prod.fst ++ [name] := by
  induction children with
  | nil => rfl
  | cons entry rest ih =>
    obtain ⟨k, child⟩ := entry
    unfold alterChild
    by_cases here : k = name
    · simp [here]
    · rw [if_neg here, List.map_cons, ih]
      by_cases later : name ∈ rest.map Prod.fst <;> simp [later, Ne.symm here]

/-- A changed child shows under its name only. -/
theorem lookup_alterChild (children : List (String × Outline)) (other : String) :
    (alterChild fresh f name children).lookup other =
      if other = name then some (f ((children.lookup name).getD fresh))
      else children.lookup other := by
  induction children with
  | nil => simp [alterChild, Lists.lookup_cons]
  | cons entry rest ih =>
    obtain ⟨k, child⟩ := entry
    unfold alterChild
    by_cases here : k = name
    · by_cases same : other = name <;> simp [here, Lists.lookup_cons, same]
    · rw [if_neg here, Lists.lookup_cons, Lists.lookup_cons, Lists.lookup_cons, ih,
        if_neg (Ne.symm here)]
      by_cases same : other = name
      · simp [same, Ne.symm here]
      · simp [same]

end AlterChild

/-! ## Arranged trees -/

/-- The level of some keys, and every level inside, holds what it has to hold. -/
inductive Arranged (ds : List Declaration) : List String → Outline → Prop
  | level {keys : List String} {children : List (String × Outline)}
      (names : children.map Prod.fst = childKeys keys ds)
      (inside : ∀ key child, children.lookup key = some child →
        Arranged ds (keys ++ [key]) child) :
      Arranged ds keys
        (.level (Place.atDepth keys.length) (typesAt keys ds) (membersAt keys ds) children)

namespace Arranged

/-- Nothing has to be on a level that no address goes through. -/
theorem emptyAt (unused : ∀ d ∈ ds, ¬ keys <+: d.address) :
    Arranged ds keys (emptyAt (Place.atDepth keys.length)) := by
  have notHere : ∀ d ∈ ds, d.address ≠ keys := fun d mem here =>
    unused d mem (here ▸ List.prefix_refl _)
  have types : typesAt keys ds = [] := by
    refine List.eq_nil_iff_forall_not_mem.2 fun d mem => ?_
    obtain ⟨inside, -, here⟩ := mem_typesAt.1 mem
    exact notHere d inside here
  have members : membersAt keys ds = [] := by
    refine List.eq_nil_iff_forall_not_mem.2 fun d mem => ?_
    obtain ⟨inside, -, here⟩ := mem_membersAt.1 mem
    exact notHere d inside here
  have names : childKeys keys ds = [] := by
    refine List.eq_nil_iff_forall_not_mem.2 fun key mem => ?_
    obtain ⟨d, inside, further⟩ := mem_childKeys.1 mem
    exact unused d inside ((List.prefix_append keys [key]).trans further)
  have arranged : Arranged ds keys
      (.level (Place.atDepth keys.length) (typesAt keys ds) (membersAt keys ds) []) :=
    level names.symm fun _ _ found => nomatch found
  rwa [types, members] at arranged

/-- A level that a new declaration does not lead to stays as it is. -/
theorem frame (h : Arranged ds keys t) (off : ¬ keys <+: d.address) :
    Arranged (ds ++ [d]) keys t := by
  induction h with
  | @level keys children names inside ih =>
    have notHere : d.address ≠ keys := fun here => off (here ▸ List.prefix_refl _)
    have notFurther : nextKey keys d.address = none := by simp [nextKey, off]
    have types : typesAt keys (ds ++ [d]) = typesAt keys ds := by
      simp [typesAt_concat, notHere]
    have members : membersAt keys (ds ++ [d]) = membersAt keys ds := by
      simp [membersAt_concat, notHere]
    rw [← types, ← members]
    refine level ?_ fun key child found => ih key child found fun further => ?_
    · rw [childKeys_concat_of_none notFurther]
      exact names
    · exact off ((List.prefix_append keys [key]).trans further)

/-- **One more declaration leaves a tree arranged**, if it is put in along its own address. -/
theorem insertAt (h : Arranged ds keys t) (rest : List String) (own : d.address = keys ++ rest) :
    Arranged (ds ++ [d]) keys (t.insertAt d rest) := by
  induction rest generalizing keys t with
  | nil =>
    rw [List.append_nil] at own
    have notFurther : nextKey keys d.address = none := by simp [nextKey, own]
    cases h with
    | @level _ children names inside =>
      have here : Arranged (ds ++ [d]) keys (.level (Place.atDepth keys.length)
          (typesAt keys (ds ++ [d])) (membersAt keys (ds ++ [d])) children) := by
        refine level ?_ fun key child found => (inside key child found).frame ?_
        · rw [childKeys_concat_of_none notFurther]
          exact names
        · -- The address ends here, so it does not go through any level inside.
          rw [own]
          intro further
          have longer := further.length_le
          rw [List.length_append, List.length_singleton] at longer
          omega
      rw [typesAt_concat, membersAt_concat] at here
      unfold Outline.insertAt push
      by_cases isType : d.isType = true
      · simpa [isType, own] using here
      · simpa [isType, own] using here
  | cons key rest ih =>
    have further : nextKey keys d.address = some key :=
      nextKey_eq_some_iff.2 ⟨rest, by simp [own]⟩
    have notHere : d.address ≠ keys := by simp [own]
    cases h with
    | @level _ children names inside =>
      have types : typesAt keys (ds ++ [d]) = typesAt keys ds := by
        simp [typesAt_concat, notHere]
      have members : membersAt keys (ds ++ [d]) = membersAt keys ds := by
        simp [membersAt_concat, notHere]
      unfold Outline.insertAt
      rw [← types, ← members]
      refine level ?_ fun other child found => ?_
      · rw [keys_alterChild, names, childKeys_concat_of_some further]
      · rw [lookup_alterChild] at found
        by_cases same : other = key
        · subst same
          rw [if_pos rfl, Option.some.injEq] at found
          subst found
          refine ih ?_ (by simp [own])
          cases known : children.lookup other with
          | some old => exact inside other old known
          | none =>
            -- The level is made now, so no address went through it before.
            have unused : other ∉ childKeys keys ds := by
              rw [← names]
              exact OrderedMap.lookup_eq_none_iff.1 known
            have fresh : Arranged ds (keys ++ [other])
                (Outline.emptyAt (Place.atDepth (keys ++ [other]).length)) :=
              emptyAt fun d mem onWay => unused (mem_childKeys.2 ⟨d, mem, onWay⟩)
            simpa using fresh
        · rw [if_neg same] at found
          refine (inside other child found).frame fun onWay => same ?_
          have next := nextKey_eq_some_iff.2 onWay
          exact Option.some.inj (next.symm.trans further)

end Arranged

/-- The tree of some declarations is arranged. -/
theorem arranged_ofDeclarations (ds : List Declaration) : Arranged ds [] (ofDeclarations ds) := by
  induction ds using List.reverseRecOn with
  | nil => exact Arranged.emptyAt fun _ mem => nomatch mem
  | append_singleton ds d ih =>
    unfold ofDeclarations at ih ⊢
    rw [List.foldl_append]
    exact ih.insertAt d.address rfl

/-! ## Going down -/

namespace Arranged

variable {level : Outline}

/-- Keys that lead somewhere lead to the level that is arranged for them. -/
theorem descend (h : Arranged ds keys t) (rest : List String)
    (found : descend? rest t = some level) : Arranged ds (keys ++ rest) level := by
  induction rest generalizing keys t with
  | nil =>
    rw [descend?, Option.some.injEq] at found
    rw [List.append_nil, ← found]
    exact h
  | cons key rest ih =>
    cases h with
    | @level _ children names inside =>
      unfold descend? at found
      cases known : children.lookup key with
      | none => simp [known] at found
      | some child =>
        simp only [known] at found
        simpa using ih (inside key child known) found

/-- There is a level for some keys exactly if some address goes through it. -/
theorem isSome_descend? (h : Arranged ds keys t) (rest : List String) :
    (descend? rest t).isSome = true ↔ rest = [] ∨ ∃ d ∈ ds, keys ++ rest <+: d.address := by
  induction rest generalizing keys t with
  | nil => simp [descend?]
  | cons key rest ih =>
    cases h with
    | @level _ children names inside =>
      unfold descend?
      cases known : children.lookup key with
      | none =>
        have unused : key ∉ childKeys keys ds := by
          rw [← names]
          exact OrderedMap.lookup_eq_none_iff.1 known
        simp only [Option.isSome_none, Bool.false_eq_true, reduceCtorEq, false_or, false_iff]
        rintro ⟨d, mem, onWay⟩
        refine unused (mem_childKeys.2 ⟨d, mem, List.IsPrefix.trans ⟨rest, ?_⟩ onWay⟩)
        simp
      | some child =>
        have used : key ∈ childKeys keys ds := by
          rw [← names]
          by_contra absent
          rw [OrderedMap.lookup_eq_none_iff.2 absent] at known
          cases known
        have further := ih (inside key child known)
        rw [List.append_assoc, List.singleton_append] at further
        simp only [further, reduceCtorEq, false_or]
        constructor
        · rintro (rfl | onWay)
          · exact mem_childKeys.1 used
          · exact onWay
        · exact Or.inr

end Arranged

/-! ## All declarations of a tree -/

mutual

/-- All declarations of a tree: those of its own level, and then those of the levels inside. -/
def contents : Outline → List Declaration
  | .level _ types members children => types ++ members ++ contentsOf children

/-- All declarations of some trees. -/
def contentsOf : List (String × Outline) → List Declaration
  | [] => []
  | (_, child) :: rest => contents child ++ contentsOf rest

end

theorem contentsOf_alterChild {fresh : Outline} {f : Outline → Outline}
    (none : fresh.contents = []) (one : ∀ t, (f t).contents.Perm (d :: t.contents)) (name : String)
    (children : List (String × Outline)) :
    (contentsOf (alterChild fresh f name children)).Perm (d :: contentsOf children) := by
  induction children with
  | nil =>
    have first := one fresh
    rw [none] at first
    simpa [alterChild, contentsOf] using first
  | cons entry rest ih =>
    obtain ⟨k, child⟩ := entry
    unfold alterChild
    by_cases here : k = name
    · rw [if_pos here]
      exact (one child).append_right (contentsOf rest)
    · rw [if_neg here]
      exact (ih.append_left child.contents).trans List.perm_middle

/-- **A new declaration comes into the tree once**, and nothing else changes. -/
theorem contents_insertAt (d : Declaration) (keys : List String) (t : Outline) :
    (t.insertAt d keys).contents.Perm (d :: t.contents) := by
  induction keys generalizing t with
  | nil =>
    obtain ⟨place, types, members, children⟩ := t
    unfold insertAt push
    by_cases isType : d.isType = true
    · simp [isType, contents]
    · have moved := @List.perm_middle _ d (types ++ members) (contentsOf children)
      simpa [isType, contents] using moved
  | cons key keys ih =>
    obtain ⟨place, types, members, children⟩ := t
    have none : (emptyAt place.inside).contents = [] := rfl
    have inside := contentsOf_alterChild none ih key children
    exact (inside.append_left (types ++ members)).trans List.perm_middle

/-- Every declaration occurs in the tree once. -/
theorem contents_ofDeclarations (ds : List Declaration) :
    (ofDeclarations ds).contents.Perm ds := by
  induction ds using List.reverseRecOn with
  | nil => exact List.Perm.refl _
  | append_singleton ds d ih =>
    unfold ofDeclarations at ih ⊢
    rw [List.foldl_append]
    have once := contents_insertAt d d.address (ds.foldl insert empty)
    exact once.trans ((ih.cons d).trans (List.perm_append_singleton d ds).symm)

/-! ## Paths -/

/-- A path with a slash, or without empty segments, is looked up under its own keys. -/
theorem get?_eq_descend? {path : String}
    (plain : path.toList.contains '/' = true ∨ [] ∉ Text.splitOn (· == '.') path.toList) :
    t.get? path = descend? (keysOf (some path)) t := by
  unfold get?
  by_cases slash : path.toList.contains '/' = true
  · rw [if_pos slash, keysOf_of_slash (List.contains_iff_mem.1 slash)]
  · have segments := plain.resolve_left slash
    have all : (Text.splitOn (· == '.') path.toList).filter (fun segment => !segment.isEmpty) =
        Text.splitOn (· == '.') path.toList := by
      refine List.filter_eq_self.2 fun segment mem => ?_
      cases segment with
      | nil => exact absurd mem segments
      | cons c rest => rfl
    rw [if_neg slash, keysOf_of_not_slash fun mem => slash (List.contains_iff_mem.2 mem), all]

/-! ## What the tree holds -/

/-- **The tree of modules is a stable partition of its declarations.** There is a level for some keys
exactly if an address goes through it. A level holds the types and the other declarations of its
address, each in the order in which they came in; its inner levels come in the order of their first
use; its place is given by its depth. Every declaration occurs once, and a path is looked up under
its own keys. -/
theorem ofDeclarations_partition (ds : List Declaration) :
    let tree := ofDeclarations ds
    (∀ keys, (descend? keys tree).isSome = true ↔ keys = [] ∨ ∃ d ∈ ds, keys <+: d.address) ∧
    (∀ keys level, descend? keys tree = some level →
      level.types = ds.filter (fun d => d.isType && d.address == keys) ∧
      level.members = ds.filter (fun d => !d.isType && d.address == keys) ∧
      level.children.map Prod.fst = childKeys keys ds ∧
      level.place = Place.atDepth keys.length) ∧
    tree.contents.Perm ds ∧
    ∀ path : String,
      path.toList.contains '/' = true ∨ [] ∉ Text.splitOn (· == '.') path.toList →
      tree.get? path = descend? (keysOf (some path)) tree := by
  intro tree
  have arranged := arranged_ofDeclarations ds
  refine ⟨fun keys => arranged.isSome_descend? keys, ?_, contents_ofDeclarations ds,
    fun path plain => get?_eq_descend? plain⟩
  intro keys level found
  have here := arranged.descend keys found
  rw [List.nil_append] at here
  cases here with
  | level names inside => exact ⟨rfl, rfl, names, rfl⟩

end Outline

end Ambient
