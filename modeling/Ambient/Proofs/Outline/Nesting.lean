import Ambient.Proofs.Levels
import Ambient.Proofs.Outline.Arrangement
/-!
# How the tree of modules is written

A tree is written part by part: a module block is opened, declarations follow, and the block is
closed. The parts say which blocks are open at any moment, and with them the level of indentation.

## Main definitions

* `Outline.Part`: a declaration, or a block that is opened or closed.
* `Outline.layout`: the parts of a tree in the order in which they are written.
* `Outline.openBlocks`: the blocks that are open after some parts, outermost first.
* `Outline.Placed`: every part fits the blocks that are open around it.

## Main statements

* `Outline.run_render`: writing a tree is writing its parts.
* `Outline.blocksFrom_layout`: a tree closes the blocks that it opens.
* `Outline.Arranged.placed`: the declarations of an arranged tree stand inside the blocks of their
  address.
* `Outline.render_ofDeclarations`: how the tree of some declarations is written.
-/

namespace Ambient.Outline

/-- One part of what is written for a tree. -/
inductive Part
  /-- The block of a module is opened. -/
  | opening (place : Place) (name : String)
  | declaration (d : Declaration)
  /-- The innermost block is closed. -/
  | closing

namespace Part

/-- The declaration of a part that is one. -/
def declaration? : Part → Option Declaration
  | .declaration d => some d
  | .opening _ _ | .closing => none

/-- The open blocks after a part, outermost first. -/
def blocksAfter (blocks : List String) : Part → List String
  | .opening _ name => blocks ++ [name]
  | .declaration _ => blocks
  | .closing => blocks.dropLast

/-- Write a part where the page stands. -/
def write (c : Config) (p : Page) : Part → Page
  | .opening place name => p.run [.line (header c place name ++ " \x7b"), .indent]
  | .declaration d => p.run ((d.render c p.level).steps c)
  | .closing => p.run [.unindent, .line "\x7d"]

/-- A part fits the blocks around it: a declaration has them as its address, the place of a new block
is that of their number, and there is one to close. -/
def Fits (blocks : List String) : Part → Prop
  | .opening place _ => place = Place.atDepth (blocks.length + 1)
  | .declaration d => d.address = blocks
  | .closing => blocks ≠ []

end Part

mutual

/-- The parts of a tree in the order in which they are written. -/
def layout : Outline → List Part
  | .level _ types members children =>
    types.map .declaration ++ members.map .declaration ++ layoutOf children

/-- The parts of modules, each in its block. -/
def layoutOf : List (String × Outline) → List Part
  | [] => []
  | (name, child) :: rest => .opening child.place name :: (layout child ++ .closing :: layoutOf rest)

end

/-- The blocks that are open after some parts, if some were open before. -/
def blocksFrom (blocks : List String) (parts : List Part) : List String :=
  parts.foldl Part.blocksAfter blocks

/-- The blocks that are open after some parts, outermost first. -/
def openBlocks (parts : List Part) : List String := blocksFrom [] parts

/-- Every part fits the blocks that are open around it, if some are open at the start. -/
def Placed (blocks : List String) : List Part → Prop
  | [] => True
  | part :: rest => part.Fits blocks ∧ Placed (part.blocksAfter blocks) rest

variable {c : Config} {ds : List Declaration} {keys blocks : List String}

/-! ## Open blocks -/

@[simp] theorem blocksFrom_cons (blocks : List String) (part : Part) (rest : List Part) :
    blocksFrom blocks (part :: rest) = blocksFrom (part.blocksAfter blocks) rest := rfl

@[simp] theorem blocksFrom_append (blocks : List String) (first second : List Part) :
    blocksFrom blocks (first ++ second) = blocksFrom (blocksFrom blocks first) second :=
  List.foldl_append

theorem blocksFrom_declarations (blocks : List String) (ds : List Declaration) :
    blocksFrom blocks (ds.map .declaration) = blocks := by
  induction ds with
  | nil => rfl
  | cons d rest ih => exact ih

mutual

/-- **A tree closes the blocks that it opens.** -/
theorem blocksFrom_layout (blocks : List String) :
    ∀ t : Outline, blocksFrom blocks t.layout = blocks
  | .level _ types members children => by
    unfold layout
    rw [blocksFrom_append, blocksFrom_append, blocksFrom_declarations, blocksFrom_declarations,
      blocksFrom_layoutOf blocks children]

theorem blocksFrom_layoutOf (blocks : List String) :
    ∀ children : List (String × Outline), blocksFrom blocks (layoutOf children) = blocks
  | [] => rfl
  | (name, child) :: rest => by
    have inner := blocksFrom_layout (blocks ++ [name]) child
    have later := blocksFrom_layoutOf blocks rest
    unfold layoutOf
    rw [blocksFrom_cons, blocksFrom_append]
    show blocksFrom (blocksFrom (blocks ++ [name]) child.layout).dropLast (layoutOf rest) = blocks
    rw [inner, List.dropLast_concat, later]

end

/-! ## Every part in its blocks -/

theorem placed_append (first second : List Part) :
    Placed blocks (first ++ second) ↔
      Placed blocks first ∧ Placed (blocksFrom blocks first) second := by
  induction first generalizing blocks with
  | nil => simp [Placed, blocksFrom]
  | cons part rest ih =>
    show part.Fits blocks ∧ Placed _ (rest ++ second) ↔ (part.Fits blocks ∧ _) ∧ _
    rw [ih, and_assoc]
    rfl

theorem placed_declarations (here : ∀ d ∈ ds, d.address = blocks) :
    Placed blocks (ds.map .declaration) := by
  induction ds with
  | nil => trivial
  | cons d rest ih =>
    exact ⟨here d List.mem_cons_self, ih fun d mem => here d (List.mem_cons_of_mem _ mem)⟩

/-- A block stands at its place, and what is inside fits it. -/
theorem placed_layoutOf {children : List (String × Outline)}
    (inside : ∀ entry ∈ children, entry.2.place = Place.atDepth (keys.length + 1) ∧
      Placed (keys ++ [entry.1]) entry.2.layout) :
    Placed keys (layoutOf children) := by
  induction children with
  | nil => trivial
  | cons entry rest ih =>
    obtain ⟨name, child⟩ := entry
    obtain ⟨place, placed⟩ := inside (name, child) List.mem_cons_self
    have later := ih fun entry mem => inside entry (List.mem_cons_of_mem _ mem)
    have closed := blocksFrom_layout (keys ++ [name]) child
    refine ⟨place, (placed_append _ _).2 ⟨placed, ?_⟩⟩
    show Placed (blocksFrom (keys ++ [name]) child.layout) (.closing :: layoutOf rest)
    rw [closed]
    refine ⟨by simp [Part.Fits], ?_⟩
    show Placed (keys ++ [name]).dropLast (layoutOf rest)
    rwa [List.dropLast_concat]

namespace Arranged

variable {children : List (String × Outline)} {t : Outline}

/-- The levels inside are found under their names. -/
theorem lookup_of_mem (names : children.map Prod.fst = childKeys keys ds) {key : String}
    {child : Outline} (mem : (key, child) ∈ children) : children.lookup key = some child := by
  have distinct : (children.map Prod.fst).Nodup := names ▸ nodup_childKeys keys ds
  exact (OrderedMap.get?_eq_some_iff (m := ⟨children, distinct⟩)).2 mem

theorem place (h : Arranged ds keys t) : t.place = Place.atDepth keys.length := by
  cases h
  rfl

/-- **The declarations of an arranged tree stand inside the blocks of their address.** -/
theorem placed (h : Arranged ds keys t) : Placed keys t.layout := by
  induction h with
  | @level keys children names inside ih =>
    have types : ∀ d ∈ typesAt keys ds, d.address = keys := fun d mem => (mem_typesAt.1 mem).2.2
    have members : ∀ d ∈ membersAt keys ds, d.address = keys :=
      fun d mem => (mem_membersAt.1 mem).2.2
    unfold layout
    rw [placed_append, placed_append, blocksFrom_append, blocksFrom_declarations,
      blocksFrom_declarations]
    refine ⟨⟨placed_declarations types, placed_declarations members⟩, placed_layoutOf ?_⟩
    rintro ⟨key, child⟩ mem
    have found := lookup_of_mem names mem
    have place := (inside key child found).place
    rw [List.length_append, List.length_singleton] at place
    exact ⟨place, ih key child found⟩

end Arranged

/-! ## Writing a tree -/

section Writing

theorem Part.level_write (p : Page) (part : Part) :
    (part.write c p).level =
      match part with
      | .opening _ _ => p.level + 1
      | .declaration _ => p.level
      | .closing => p.level - 1 := by
  cases part with
  | opening place name => rfl
  | declaration d => exact (Declaration.keepsLevel_render p.level d).level_run p
  | closing => rfl

/-- The level of indentation counts the open blocks. -/
theorem level_write {parts : List Part} (placed : Placed blocks parts) {start : Nat} {p : Page}
    (here : p.level = start + blocks.length) :
    (parts.foldl (Part.write c) p).level = start + (blocksFrom blocks parts).length := by
  -- The page and the open blocks change together; only a block that is open can be closed, so the
  -- level is never cut off at zero.
  induction parts generalizing p blocks with
  | nil => exact here
  | cons part rest ih =>
    refine ih placed.2 ?_
    have fits := placed.1
    rw [Part.level_write]
    cases part with
    | opening place name => simp [Part.blocksAfter, here, Nat.add_assoc]
    | declaration d => exact here
    | closing =>
      have open_ := List.length_pos_iff.2 fits
      show p.level - 1 = start + blocks.dropLast.length
      rw [List.length_dropLast, here]
      omega

theorem run_renderAll (ds : List Declaration) (p : Page) :
    p.run ((Declaration.renderAll c p.level ds).steps c) =
      (ds.map .declaration).foldl (Part.write c) p := by
  induction ds generalizing p with
  | nil => rfl
  | cons d rest ih =>
    have kept := (Declaration.keepsLevel_render (c := c) p.level d).level_run p
    have later := ih (p.run ((d.render c p.level).steps c))
    rw [kept] at later
    unfold Declaration.renderAll
    rw [Rendering.steps_append, Page.run_append, later]
    rfl

mutual

theorem keepsLevel_render :
    ∀ (indentation : Nat) (t : Outline), (t.render c indentation).KeepsLevel c
  | indentation, .level _ types members children =>
    ((Declaration.keepsLevel_renderAll indentation types).append
      (Declaration.keepsLevel_renderAll indentation members)).append
        (keepsLevel_renderChildren indentation children)

theorem keepsLevel_renderChildren :
    ∀ (indentation : Nat) (children : List (String × Outline)),
      (renderChildren c indentation children).KeepsLevel c
  | _, [] => Rendering.keepsLevel_empty
  | indentation, (_, child) :: rest =>
    (Rendering.KeepsLevel.block _ (keepsLevel_render (indentation + 1) child)).append
      (keepsLevel_renderChildren indentation rest)

end

mutual

/-- **Writing a tree is writing its parts**, one after another. -/
theorem run_render : ∀ (t : Outline) (p : Page),
    p.run ((t.render c p.level).steps c) = t.layout.foldl (Part.write c) p
  | .level _ types members children, p => by
    have afterTypes := (Declaration.keepsLevel_renderAll (c := c) p.level types).level_run p
    have afterMembers : ((p.run ((Declaration.renderAll c p.level types).steps c)).run
        ((Declaration.renderAll c p.level members).steps c)).level = p.level := by
      rw [(Declaration.keepsLevel_renderAll p.level members).level_run, afterTypes]
    have second := run_renderAll (c := c) members
      (p.run ((Declaration.renderAll c p.level types).steps c))
    have third := run_renderChildren children
      ((p.run ((Declaration.renderAll c p.level types).steps c)).run
        ((Declaration.renderAll c p.level members).steps c))
    rw [afterTypes] at second
    rw [afterMembers] at third
    unfold render layout
    rw [Rendering.steps_append, Rendering.steps_append, Page.run_append, Page.run_append, third,
      second, run_renderAll, List.foldl_append, List.foldl_append]

theorem run_renderChildren : ∀ (children : List (String × Outline)) (p : Page),
    p.run ((renderChildren c p.level children).steps c) =
      (layoutOf children).foldl (Part.write c) p
  | [], _ => rfl
  | (name, child) :: rest, p => by
    -- The page after the header, after the body, and after the closing brace.
    let opened := (Part.opening child.place name).write c p
    let filled := opened.run ((child.render c opened.level).steps c)
    let closed := Part.closing.write c filled
    have kept : filled.level = opened.level :=
      (keepsLevel_render opened.level child).level_run opened
    have back : closed.level = p.level := by
      show filled.level - 1 = p.level
      rw [kept]
      rfl
    have inner : filled = child.layout.foldl (Part.write c) opened := run_render child opened
    have later := run_renderChildren rest closed
    rw [back] at later
    have block : p.run ((Rendering.block [.text (header c child.place name)]
        (child.render c (p.level + 1))).steps c) = closed := by
      have head : Line.print c [.text (header c child.place name)] = header c child.place name :=
        String.append_empty ..
      rw [Rendering.steps_block, head]
      show opened.run ((child.render c opened.level).steps c ++ _) = closed
      rw [Page.run_append]
      rfl
    unfold renderChildren layoutOf
    rw [Rendering.steps_append, Page.run_append, block, later, List.foldl_cons, List.foldl_append,
      ← inner]
    rfl

end

end Writing

/-! ## Levels in what is written -/

/-- Types come first, then members, and then the blocks inside. -/
theorem layout_level (place : Place) (types members : List Declaration)
    (children : List (String × Outline)) :
    (level place types members children).layout =
      types.map .declaration ++ members.map .declaration ++ layoutOf children := by
  rw [layout]

theorem layoutOf_eq_flatMap (children : List (String × Outline)) :
    layoutOf children = children.flatMap fun (name, child) =>
      .opening child.place name :: (child.layout ++ [.closing]) := by
  induction children with
  | nil => rfl
  | cons entry rest ih =>
    obtain ⟨name, child⟩ := entry
    rw [layoutOf, ih, List.flatMap_cons, List.cons_append, List.append_assoc]
    rfl

theorem filterMap_declarations (ds : List Declaration) :
    (ds.map Part.declaration).filterMap Part.declaration? = ds := by
  rw [List.filterMap_map]
  exact List.filterMap_some

mutual

/-- The declarations that are written are those of the tree, in the same order. -/
theorem declarations_layout :
    ∀ t : Outline, t.layout.filterMap Part.declaration? = t.contents
  | .level _ types members children => by
    unfold layout contents
    rw [List.filterMap_append, List.filterMap_append, filterMap_declarations,
      filterMap_declarations, declarations_layoutOf children]

theorem declarations_layoutOf :
    ∀ children : List (String × Outline),
      (layoutOf children).filterMap Part.declaration? = contentsOf children
  | [] => rfl
  | (name, child) :: rest => by
    have inner := declarations_layout child
    have later := declarations_layoutOf rest
    rw [layoutOf, contentsOf, ← inner, ← later, ← List.filterMap_append]
    show (child.layout ++ .closing :: layoutOf rest).filterMap Part.declaration? = _
    rw [List.filterMap_append, List.filterMap_append]
    rfl

end

/-- A level is written in one piece, inside the blocks of the keys that lead to it. -/
theorem layout_descend {t found : Outline} (rest : List String)
    (leads : descend? rest t = some found) :
    ∃ before after, t.layout = before ++ found.layout ++ after ∧
      blocksFrom keys before = keys ++ rest := by
  induction rest generalizing t keys with
  | nil =>
    rw [descend?, Option.some.injEq] at leads
    exact ⟨[], [], by simp [leads], (List.append_nil keys).symm⟩
  | cons key rest ih =>
    obtain ⟨place, types, members, children⟩ := t
    unfold descend? at leads
    cases known : children.lookup key with
    | none => simp [known] at leads
    | some child =>
      simp only [known] at leads
      obtain ⟨before, after, split, blocks⟩ := @ih (keys ++ [key]) child leads
      -- The modules left of this one are closed again, so only its own block is open before it.
      obtain ⟨left, right, rfl, -⟩ := List.lookup_eq_some_iff.1 known
      refine ⟨types.map .declaration ++ members.map .declaration ++ layoutOf left ++
        .opening child.place key :: before, after ++ .closing :: layoutOf right, ?_, ?_⟩
      · simp only [layout_level, layoutOf_eq_flatMap, List.flatMap_append, List.flatMap_cons, split,
          List.append_assoc, List.cons_append, List.nil_append]
      · rw [blocksFrom_append, blocksFrom_append, blocksFrom_append, blocksFrom_declarations,
          blocksFrom_declarations, blocksFrom_layoutOf, blocksFrom_cons]
        show blocksFrom (keys ++ [key]) before = _
        rw [blocks, List.append_assoc]
        rfl

/-! ## What there is to report -/

mutual

/-- There is to report what there is about each declaration of the tree. -/
theorem findings_render : ∀ (indentation : Nat) (t : Outline),
    (t.render c indentation).findings c =
      t.contents.flatMap fun d => (d.render c 0).findings c
  | indentation, .level _ types members children => by
    have inner := findings_renderChildren indentation children
    unfold render contents
    rw [Rendering.findings_append, Rendering.findings_append, Declaration.findings_renderAll,
      Declaration.findings_renderAll, inner, List.flatMap_append, List.flatMap_append]

theorem findings_renderChildren : ∀ (indentation : Nat) (children : List (String × Outline)),
    (renderChildren c indentation children).findings c =
      (contentsOf children).flatMap fun d => (d.render c 0).findings c
  | _, [] => rfl
  | indentation, (name, child) :: rest => by
    have inner := findings_render (indentation + 1) child
    have later := findings_renderChildren indentation rest
    unfold renderChildren contentsOf
    rw [Rendering.findings_append, Rendering.findings_block, inner, later, List.flatMap_append]
    rfl

end

/-! ## Where `declare` is written -/

/-- The header of a block right under global scope starts with the word of the outermost level. -/
theorem header_topModule (c : Config) (name : String) :
    header c .topModule name = declareWord c 0 ++ ("module " ++ headerName name) := by
  simp [header, declareWord, String.append_assoc]

theorem header_undeclared (name : String) :
    header c.undeclared .nestedModule name = header c .nestedModule name := rfl

/-- With `declare` turned off there is none in any header. -/
theorem header_undeclared_eq (c : Config) (place : Place) (name : String) :
    header c.undeclared place name = "module " ++ headerName name := by
  simp [header, Config.undeclared, Config.declaresTopLevel]

theorem renderChildren_undeclared (c : Config) (indentation : Nat)
    {children : List (String × Outline)}
    (inside : ∀ entry ∈ children, entry.2.place = .nestedModule ∧
      entry.2.render c.undeclared (indentation + 1) = entry.2.render c (indentation + 1)) :
    renderChildren c.undeclared indentation children = renderChildren c indentation children := by
  induction children with
  | nil => rfl
  | cons entry rest ih =>
    obtain ⟨key, child⟩ := entry
    obtain ⟨place, body⟩ := inside (key, child) List.mem_cons_self
    have later := ih fun entry mem => inside entry (List.mem_cons_of_mem _ mem)
    unfold renderChildren
    rw [place, header_undeclared, body, later]

/-- Inside the modules of a tree nothing depends on `declare`. -/
theorem Arranged.render_undeclared {t : Outline} (h : Arranged ds keys t) (nested : keys ≠ [])
    {indentation : Nat} (inside : 0 < indentation) :
    t.render c.undeclared indentation = t.render c indentation := by
  induction h generalizing indentation with
  | @level keys children names below ih =>
    have depth := List.length_pos_iff.2 nested
    have modules : renderChildren c.undeclared indentation children =
        renderChildren c indentation children := by
      refine renderChildren_undeclared c indentation ?_
      rintro ⟨key, child⟩ mem
      have found := lookup_of_mem names mem
      refine ⟨?_, ih key child found (by simp) (Nat.succ_pos indentation)⟩
      obtain ⟨n, long⟩ : ∃ n, keys.length = n + 1 := ⟨keys.length - 1, by omega⟩
      rw [(below key child found).place, List.length_append, List.length_singleton, long]
      rfl
    unfold render
    rw [Declaration.renderAll_undeclared inside, Declaration.renderAll_undeclared inside, modules]

theorem declared_renderChildren (c : Config) {children : List (String × Outline)}
    (inside : ∀ entry ∈ children, entry.2.place = .topModule ∧
      entry.2.render c.undeclared 1 = entry.2.render c 1) :
    Rendering.DeclaredAs c (renderChildren c 0 children)
      (renderChildren c.undeclared 0 children) := by
  induction children with
  | nil => exact Rendering.DeclaredAs.refl _
  | cons entry rest ih =>
    obtain ⟨key, child⟩ := entry
    obtain ⟨place, body⟩ := inside (key, child) List.mem_cons_self
    have later := ih fun entry mem => inside entry (List.mem_cons_of_mem _ mem)
    have keeps := keepsLevel_render (c := c) 1 child
    have keeps' := keepsLevel_render (c := c.undeclared) 1 child
    rw [body] at keeps'
    unfold renderChildren
    rw [place, header_topModule, header_topModule, body]
    exact (Rendering.declaredAs_block _ _ keeps).append later (keeps.block _) (keeps'.block _)

/-- At the outermost level `declare` comes in front of some lines, and that is all it changes. -/
theorem Arranged.declared_render {t : Outline} (h : Arranged ds [] t) :
    Rendering.DeclaredAs c (t.render c 0) (t.render c.undeclared 0) := by
  cases h with
  | @level _ children names below =>
    have modules : Rendering.DeclaredAs c (renderChildren c 0 children)
        (renderChildren c.undeclared 0 children) := by
      refine declared_renderChildren c ?_
      rintro ⟨key, child⟩ mem
      have arranged := below key child (lookup_of_mem names mem)
      exact ⟨arranged.place, arranged.render_undeclared (by simp) Nat.one_pos⟩
    have types := Declaration.keepsLevel_renderAll (c := c) 0 (typesAt [] ds)
    have types' := Declaration.keepsLevel_renderAll (c := c.undeclared) 0 (typesAt [] ds)
    have members := Declaration.keepsLevel_renderAll (c := c) 0 (membersAt [] ds)
    have members' := Declaration.keepsLevel_renderAll (c := c.undeclared) 0 (membersAt [] ds)
    have own := (Declaration.declared_renderAll c (typesAt [] ds)).append
      (Declaration.declared_renderAll c (membersAt [] ds)) types types'
    unfold render
    exact own.append modules (types.append members) (types'.append members')

/-! ## How some declarations are written -/

/-- A block that fits has `declare` in its header exactly if no other block is open and the
configuration asks for it. -/
theorem header_of_fits (c : Config) {place : Place} {name : String}
    (fits : (Part.opening place name).Fits blocks) :
    header c place name =
      (if blocks = [] ∧ c.declaresTopLevel = true then "declare " else "") ++
        "module " ++ headerName name := by
  have top : place = .topModule ↔ blocks = [] := by
    rw [show place = Place.atDepth (blocks.length + 1) from fits]
    cases blocks <;> simp [Place.atDepth]
  unfold header
  simp only [top]

/-- What an arranged level is written as. -/
theorem Arranged.layout_eq {level : Outline} (h : Arranged ds keys level) :
    level.layout =
      (typesAt keys ds).map .declaration ++ (membersAt keys ds).map .declaration ++
        level.children.flatMap (fun (key, child) =>
          .opening child.place key :: (child.layout ++ [.closing])) ∧
    level.children.map Prod.fst = childKeys keys ds := by
  cases h with
  | level names inside =>
    refine ⟨?_, names⟩
    rw [layout_level, layoutOf_eq_flatMap]
    rfl

/-- **Every declaration is written once, inside the blocks of its address.** A tree is written part
by part. Every declaration is one of the parts; where it is written, the open blocks are those of
its address, outermost first, and the level of indentation counts them. Within one level the types
come first, then the other declarations, and then the blocks inside in the order of their keys. Every
block is closed. The header of a block has `declare` exactly if the block stands right under global
scope and the configuration asks for it; so from the outermost level on, all that the word changes
is to come in front of lines that stand in no block. The word itself is empty at every level further
in, and with `declare` turned off it is written at no level and in no header. -/
theorem render_ofDeclarations (c : Config) (ds : List Declaration) (p : Page) :
    let tree := ofDeclarations ds
    let written := p.run ((tree.render c p.level).steps c)
    written = tree.layout.foldl (Part.write c) p ∧
    (tree.layout.filterMap Part.declaration?).Perm ds ∧
    (∀ before part after, tree.layout = before ++ part :: after →
      let blocks := openBlocks before
      (before.foldl (Part.write c) p).level = p.level + blocks.length ∧
      match part with
      | .declaration d => d.address = blocks
      | .opening place name =>
        header c place name =
          (if blocks = [] ∧ c.declaresTopLevel = true then "declare " else "") ++
            "module " ++ headerName name
      | .closing => blocks ≠ []) ∧
    openBlocks tree.layout = [] ∧ written.level = p.level ∧
    (∀ keys level, descend? keys tree = some level →
      (∃ before after, tree.layout = before ++ level.layout ++ after ∧
        openBlocks before = keys) ∧
      level.layout =
        (typesAt keys ds).map .declaration ++ (membersAt keys ds).map .declaration ++
          level.children.flatMap (fun (key, child) =>
            .opening child.place key :: (child.layout ++ [.closing])) ∧
      level.children.map Prod.fst = childKeys keys ds) ∧
    List.Forall₂ Page.DeclaredAs ((tree.render c 0).lines c 0)
      ((tree.render c.undeclared 0).lines c.undeclared 0) ∧
    (∀ level, 0 < level → declareWord c level = "") ∧
    (∀ level, declareWord c.undeclared level = "") ∧
    ∀ place name, header c.undeclared place name = "module " ++ headerName name := by
  intro tree written
  have arranged : Arranged ds [] tree := arranged_ofDeclarations ds
  have once : (tree.layout.filterMap Part.declaration?).Perm ds := by
    rw [declarations_layout]
    exact contents_ofDeclarations ds
  have back : written.level = p.level := by
    show (p.run _).level = p.level
    rw [Page.level_run, keepsLevel_render]
  refine ⟨run_render tree p, once, ?_, blocksFrom_layout [] tree, back, ?_,
    arranged.declared_render, fun _ inside => declareWord_of_pos inside, declareWord_undeclared,
    header_undeclared_eq c⟩
  · intro before part after split blocks
    have placed := arranged.placed
    rw [split, placed_append] at placed
    refine ⟨level_write placed.1 rfl, ?_⟩
    have fits : part.Fits blocks := placed.2.1
    cases part with
    | declaration d => exact fits
    | closing => exact fits
    | opening place name => exact header_of_fits c fits
  · intro keys level found
    have here := arranged.descend keys found
    rw [List.nil_append] at here
    exact ⟨layout_descend keys found, here.layout_eq⟩

end Ambient.Outline
