import Ambient.Proofs.Names.Tokens
import Ambient.Proofs.Outline.Nesting
/-!
# The headers of module blocks

A tree of modules opens a block for each key on the way to a declaration. The header of the block
has the key as it is, or between quotes if there is a slash in it. Nothing else about the key is
looked at, so a header without a slash opens a module only if the key is a name of a module already.

## Main definitions

* `Token.IsModuleName`: an identifier or a string literal.
* `Token.OpensModule`: a line that opens a module block.
* `Outline.headerLines`: the header lines of a tree.
* `Outline.IsLegalKey`: a key of which a legal header is made.

## Main statements

* `Outline.Arranged.forall_opening_iff`: the blocks of an arranged tree are those of the addresses
  that go through it.
* `Outline.opensModule_header_iff`: when a header opens a module.
* `Outline.headers_legal_iff`: all headers are legal exactly if all keys of the addresses are.
-/

namespace Ambient

namespace Token

/-- The name of a module: an identifier or a string literal. -/
def IsModuleName (L : Alphabet) (name : String) : Prop := IsIdentifier L name ∨ IsLiteral name

/-- A line that opens a module block. -/
def OpensModule (L : Alphabet) (line : String) : Prop :=
  ∃ declared name, (declared = "" ∨ declared = "declare ") ∧ IsModuleName L name ∧
    line = declared ++ "module " ++ name ++ " \x7b"

variable {L : Alphabet} {declared name : String}

/-- The line says which name it has. -/
theorem opensModule_iff (word : declared = "" ∨ declared = "declare ") :
    OpensModule L (declared ++ "module " ++ name ++ " \x7b") ↔ IsModuleName L name := by
  constructor
  · rintro ⟨declared', name', word', isName, same⟩
    have parts : (declared ++ "module ") ++ name = (declared' ++ "module ") ++ name' :=
      (String.append_left_inj _).1 same
    have chars := congrArg String.toList parts
    rcases word with rfl | rfl <;> rcases word' with rfl | rfl
    · rwa [(String.append_right_inj _).1 parts]
    · simp at chars
    · simp at chars
    · rwa [(String.append_right_inj _).1 parts]
  · exact fun isName => ⟨declared, name, word, isName, rfl⟩

/-- A name between quotes names a module exactly if it reads as something. -/
theorem isModuleName_quotes_iff :
    IsModuleName L ("\"" ++ name ++ "\"") ↔ ∃ content, Reads name.toList content := by
  unfold IsModuleName IsIdentifier IsLiteral
  simp only [toList_quotes, readsAs_quoted_iff]
  simp [quoted, not_spells_quote]

end Token

namespace Outline

open Token

variable {L : Alphabet} {c : Config} {ds : List Declaration} {keys : List String} {t : Outline}

/-- The header line of a part that opens a block. -/
def Part.headerLine? (c : Config) : Part → Option String
  | .opening place name => some (header c place name ++ " \x7b")
  | .declaration _ | .closing => none

/-- The header lines of a tree, in the order in which they are written. -/
def headerLines (c : Config) (t : Outline) : List String :=
  t.layout.filterMap (Part.headerLine? c)

/-- A key of which a legal header is made: with a slash, one that reads as something between quotes,
and otherwise a name of a module. -/
def IsLegalKey (L : Alphabet) (key : String) : Prop :=
  if '/' ∈ key.toList then ∃ content, Reads key.toList content else IsModuleName L key

/-! ## One header -/

/-- **When a header opens a module.** Where the block stands does not matter. -/
theorem opensModule_header_iff (c : Config) (place : Place) (key : String) :
    OpensModule L (header c place key ++ " \x7b") ↔ IsLegalKey L key := by
  have word : ∀ p : Prop, [Decidable p] →
      (if p then "declare " else "") = "" ∨ (if p then "declare " else "") = "declare " := by
    intro p _
    by_cases declares : p <;> simp [declares]
  rw [header, opensModule_iff (word _), IsLegalKey, headerName]
  by_cases slash : '/' ∈ key.toList
  · rw [if_pos slash, if_pos (List.contains_iff_mem.2 slash), isModuleName_quotes_iff]
  · rw [if_neg slash, if_neg (fun found => slash (List.contains_iff_mem.1 found))]

/-! ## All headers -/

theorem forall_mem_headerLines {P : String → Prop} :
    (∀ line ∈ headerLines c t, P line) ↔
      ∀ place name, Part.opening place name ∈ t.layout → P (header c place name ++ " \x7b") := by
  unfold headerLines
  constructor
  · intro all place name mem
    exact all _ (List.mem_filterMap.2 ⟨.opening place name, mem, rfl⟩)
  · intro all line mem
    obtain ⟨part, inside, found⟩ := List.mem_filterMap.1 mem
    cases part with
    | opening place name =>
      cases found
      exact all place name inside
    | declaration d => cases found
    | closing => cases found

/-- The parts of modules are those of each one, in its block. -/
theorem mem_layoutOf_iff {part : Part} {children : List (String × Outline)} :
    part ∈ layoutOf children ↔ ∃ key child, (key, child) ∈ children ∧
      (part = .opening child.place key ∨ part ∈ child.layout ∨ part = .closing) := by
  rw [layoutOf_eq_flatMap, List.mem_flatMap]
  constructor
  · rintro ⟨⟨key, child⟩, mem, found⟩
    exact ⟨key, child, mem, by simpa using found⟩
  · rintro ⟨key, child, mem, found⟩
    exact ⟨(key, child), mem, by simpa using found⟩

/-- What holds of the names of all blocks inside a level holds of its modules and inside them. -/
theorem forall_opening_level {P : String → Prop} (place : Place) (types members : List Declaration)
    (children : List (String × Outline)) :
    (∀ here name, Part.opening here name ∈ (level place types members children).layout → P name) ↔
      ∀ key child, (key, child) ∈ children →
        P key ∧ ∀ here name, Part.opening here name ∈ child.layout → P name := by
  have plain : ∀ (ds : List Declaration) (here : Place) (name : String),
      Part.opening here name ∉ ds.map Part.declaration := by simp
  rw [layout_level]
  constructor
  · intro all key child mem
    have inside : ∀ here name, (Part.opening here name = .opening child.place key ∨
        Part.opening here name ∈ child.layout) → P name := by
      rintro here name found
      refine all here name (List.mem_append_right _ (mem_layoutOf_iff.2 ⟨key, child, mem, ?_⟩))
      exact found.imp_right Or.inl
    refine ⟨inside child.place key (Or.inl rfl), fun here name found => ?_⟩
    exact inside here name (Or.inr found)
  · intro all here name mem
    rcases List.mem_append.1 mem with own | inner
    · rcases List.mem_append.1 own with type | member
      · exact absurd type (plain types here name)
      · exact absurd member (plain members here name)
    · obtain ⟨key, child, isChild, same | inChild | closing⟩ := mem_layoutOf_iff.1 inner
      · cases same
        exact (all name child isChild).1
      · exact (all key child isChild).2 here name inChild
      · cases closing

/-- **The blocks of an arranged tree are those of the addresses that go through it.** -/
theorem Arranged.forall_opening_iff (h : Arranged ds keys t) {P : String → Prop} :
    (∀ place name, Part.opening place name ∈ t.layout → P name) ↔
      ∀ d ∈ ds, ∀ rest, d.address = keys ++ rest → ∀ key ∈ rest, P key := by
  induction h with
  | @level keys children names inside ih =>
    rw [forall_opening_level]
    have child_of_used : ∀ key, key ∈ childKeys keys ds → ∃ child, (key, child) ∈ children := by
      intro key used
      rw [← names] at used
      obtain ⟨⟨key', child⟩, mem, rfl⟩ := List.mem_map.1 used
      exact ⟨child, mem⟩
    constructor
    · intro all d mem rest own key inRest
      cases rest with
      | nil => nomatch inRest
      | cons first rest =>
        have longer : d.address = (keys ++ [first]) ++ rest := by simpa using own
        have used : first ∈ childKeys keys ds :=
          mem_childKeys.2 ⟨d, mem, longer ▸ List.prefix_append _ _⟩
        obtain ⟨child, isChild⟩ := child_of_used first used
        obtain ⟨here, below⟩ := all first child isChild
        rcases List.mem_cons.1 inRest with rfl | later
        · exact here
        · have found := lookup_of_mem names isChild
          exact (ih first child found).1 below d mem rest longer key later
    · intro all key child isChild
      have used : key ∈ childKeys keys ds := names ▸ List.mem_map_of_mem (f := Prod.fst) isChild
      obtain ⟨d, mem, rest, own⟩ := mem_childKeys.1 used
      rw [List.append_assoc, List.singleton_append] at own
      refine ⟨all d mem (key :: rest) own.symm key List.mem_cons_self, ?_⟩
      refine (ih key child (lookup_of_mem names isChild)).2 fun d mem rest own k inRest => ?_
      rw [List.append_assoc, List.singleton_append] at own
      exact all d mem (key :: rest) own k (List.mem_cons_of_mem _ inRest)

/-- **All headers are legal exactly if all keys of the addresses are.** A tree is written part by
part, and each block that a part opens gets a header line. For all declarations, each of these lines
is `module`, with or without `declare` in front, and the name of a module, exactly if each key on
the way to a declaration is legal: a path with a slash has to read as something between quotes, and
a segment of any other path has to be an identifier or a string literal already. The configuration
and the page do not matter. -/
theorem headers_legal_iff (L : Alphabet) (c : Config) (ds : List Declaration) (p : Page) :
    let tree := ofDeclarations ds
    p.run ((tree.render c p.level).steps c) = tree.layout.foldl (Part.write c) p ∧
    ((∀ line ∈ headerLines c tree, OpensModule L line) ↔
      ∀ d ∈ ds, ∀ key ∈ d.address, IsLegalKey L key) := by
  intro tree
  refine ⟨run_render tree p, ?_⟩
  have arranged : Arranged ds [] tree := arranged_ofDeclarations ds
  rw [forall_mem_headerLines]
  simp only [opensModule_header_iff]
  rw [arranged.forall_opening_iff]
  constructor
  · exact fun all d mem => all d mem d.address rfl
  · intro all d mem rest own
    rw [List.nil_append] at own
    exact own ▸ all d mem

/-- A class in a module with a dash in its path. -/
theorem header_illegal_dash :
    let d : Declaration := .classOf
      { name := "A", longname := "module:foo-bar.A", kind := .classType,
        memberof := some "module:foo-bar" } {}
    headerLines {} (ofDeclarations [d]) = ["declare module foo-bar \x7b"] ∧
      ∀ L : Alphabet, ¬ OpensModule L "declare module foo-bar \x7b" := by
  intro d
  refine ⟨rfl, fun L opens => ?_⟩
  have legal := (opensModule_header_iff {} .topModule "foo-bar").1 opens
  rw [IsLegalKey, if_neg (by decide)] at legal
  rcases legal with ⟨name, spelled, -⟩ | ⟨content, body, quotes, -⟩
  · exact not_spells_dash (by decide) (by decide) spelled
  · exact absurd (List.cons.inj quotes).1 (by decide)

end Outline

end Ambient
