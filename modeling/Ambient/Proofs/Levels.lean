import Mathlib.Data.List.Forall2
import Ambient.Declaration.Rendering
/-!
# Levels of indentation, and where `declare` is written

Every declaration goes back to the level at which it starts, so renderings can be put one after
another and each of them stands where the first one does. The word `declare` depends on the level
alone: it is written on lines of the outermost level only. What there is to report about a
declaration does not depend on the level at all.

## Main definitions

* `Page.levelAfter`, `Page.linesFrom`: the level after some steps, and the lines that they write.
* `Rendering.lines`: the lines of a rendering, each with its level.
* `Rendering.KeepsLevel`: a rendering ends at the level at which it starts.
* `Config.undeclared`: a configuration with `declare` turned off.
* `Page.DeclaredAs`: a line against the same line of a run without `declare`.

## Main statements

* `Page.text_run`: what some steps write is their lines.
* `Declaration.keepsLevel_render`: every declaration keeps the level.
* `Declaration.findings_render`: what there is to report does not depend on the level.
* `Declaration.render_undeclared`: inside a block nothing depends on `declare`.
* `Declaration.declared_render`: at the outermost level it comes in front of some lines, and that is
  all.
-/

namespace Ambient

/-! ## Levels and lines of steps -/

namespace Page

/-- The level after some steps. -/
def levelAfter (level : Nat) : List Step → Nat
  | [] => level
  | .indent :: rest => levelAfter (level + 1) rest
  | .unindent :: rest => levelAfter (level - 1) rest
  | .line _ :: rest => levelAfter level rest

/-- The lines that some steps write, each with the level at which it is written. -/
def linesFrom (level : Nat) : List Step → List (Nat × String)
  | [] => []
  | .indent :: rest => linesFrom (level + 1) rest
  | .unindent :: rest => linesFrom (level - 1) rest
  | .line text :: rest => (level, text) :: linesFrom level rest

theorem level_run (p : Page) (steps : List Step) :
    (p.run steps).level = levelAfter p.level steps := by
  induction steps generalizing p with
  | nil => rfl
  | cons step rest ih =>
    rw [run_cons, ih]
    cases step <;> rfl

/-- What steps write is their lines, one after another. -/
theorem text_run (p : Page) (steps : List Step) :
    (p.run steps).text =
      (linesFrom p.level steps).foldl (fun text line => text ++ lineAt line.1 line.2) p.text := by
  induction steps generalizing p with
  | nil => rfl
  | cons step rest ih =>
    rw [run_cons, ih]
    cases step <;> rfl

theorem levelAfter_append (level : Nat) (first second : List Step) :
    levelAfter level (first ++ second) = levelAfter (levelAfter level first) second := by
  induction first generalizing level with
  | nil => rfl
  | cons step rest ih => cases step <;> exact ih _

theorem linesFrom_append (level : Nat) (first second : List Step) :
    linesFrom level (first ++ second) =
      linesFrom level first ++ linesFrom (levelAfter level first) second := by
  induction first generalizing level with
  | nil => rfl
  | cons step rest ih =>
    cases step with
    | indent => exact ih _
    | unindent => exact ih _
    | line text => exact congrArg ((level, text) :: ·) (ih level)

end Page

namespace Rendering

variable {c : Config} {first second body : Rendering}

/-- The lines of a rendering that starts at a level, each with its own level. -/
def lines (c : Config) (level : Nat) (r : Rendering) : List (Nat × String) :=
  Page.linesFrom level (r.steps c)

/-- A rendering ends at the level at which it starts. -/
def KeepsLevel (c : Config) (r : Rendering) : Prop :=
  ∀ level, Page.levelAfter level (r.steps c) = level

theorem keepsLevel_empty : KeepsLevel c {} := fun _ => rfl

theorem keepsLevel_line (pieces : Line) : KeepsLevel c (line pieces) := fun _ => rfl

theorem keepsLevel_finding (found : Finding) : KeepsLevel c (finding found) := fun _ => rfl

theorem KeepsLevel.append (h : first.KeepsLevel c) (h' : second.KeepsLevel c) :
    (first ++ second).KeepsLevel c := by
  intro level
  rw [steps_append, Page.levelAfter_append, h level, h' level]

theorem KeepsLevel.block (header : Line) (h : body.KeepsLevel c) :
    (Rendering.block header body).KeepsLevel c := by
  intro level
  rw [steps_block]
  show Page.levelAfter (level + 1) (body.steps c ++ _) = level
  rw [Page.levelAfter_append, h (level + 1)]
  rfl

/-- Steps that only write lines stay at their level. -/
theorem keepsLevel_ofSteps {steps : List Page.Step}
    (onlyLines : ∀ step ∈ steps, ∃ text, step = .line text) : KeepsLevel c (ofSteps steps) := by
  intro level
  rw [steps_ofSteps]
  induction steps with
  | nil => rfl
  | cons step rest ih =>
    obtain ⟨text, rfl⟩ := onlyLines step List.mem_cons_self
    exact ih fun step mem => onlyLines step (List.mem_cons_of_mem _ mem)

/-- Behind it the page is at the level at which it was. -/
theorem KeepsLevel.level_run (h : body.KeepsLevel c) (p : Page) :
    (p.run (body.steps c)).level = p.level :=
  (Page.level_run p _).trans (h p.level)

theorem lines_append (level : Nat) (h : first.KeepsLevel c) :
    (first ++ second).lines c level = first.lines c level ++ second.lines c level := by
  unfold lines
  rw [steps_append, Page.linesFrom_append, h level]

/-- The body of a block stands one level further in. -/
theorem lines_block (level : Nat) (header : Line) (h : body.KeepsLevel c) :
    (Rendering.block header body).lines c level =
      (level, header.print c ++ " \x7b") :: (body.lines c (level + 1) ++ [(level, "\x7d")]) := by
  unfold lines
  rw [steps_block]
  show _ :: Page.linesFrom (level + 1) (body.steps c ++ _) = _
  rw [Page.linesFrom_append, h (level + 1)]
  rfl

end Rendering

/-! ## Declarations keep the level -/

namespace Page.Step

theorem commentBlock_onlyLines (texts : List String) :
    ∀ step ∈ commentBlock texts, ∃ text, step = .line text := by
  intro step mem
  unfold commentBlock at mem
  split at mem
  · cases mem
  · simp only [List.mem_cons, List.mem_append, List.mem_map, List.not_mem_nil, or_false] at mem
    rcases mem with rfl | ⟨text, -, rfl⟩ | rfl
    · exact ⟨_, rfl⟩
    · exact ⟨_, rfl⟩
    · exact ⟨_, rfl⟩

theorem lines_onlyLines (text : String) : ∀ step ∈ lines text, ∃ t, step = .line t := by
  intro step mem
  obtain ⟨written, -, rfl⟩ := List.mem_map.1 mem
  exact ⟨_, rfl⟩

end Page.Step

theorem docletLines_onlyLines (d : Doclet) :
    ∀ step ∈ docletLines d, ∃ text, step = .line text := by
  intro step mem
  obtain ⟨written, -, rfl⟩ := List.mem_map.1 mem
  exact ⟨_, rfl⟩

section KeepsLevel

open Rendering

variable {c : Config}

theorem keepsLevel_docs (d : Doclet) (description : Option String) (label : String)
    (tags : List String) : (docs c d description label tags).KeepsLevel c := by
  refine KeepsLevel.append ?_ (keepsLevel_ofSteps fun step mem => ?_)
  · split
    · exact keepsLevel_finding _
    · exact keepsLevel_empty
  · rw [List.mem_append] at mem
    refine mem.elim (fun record => ?_) (Page.Step.commentBlock_onlyLines _ step)
    split at record
    · exact docletLines_onlyLines d step record
    · cases record

theorem MemberReplacement.keepsLevel_render (r : MemberReplacement) : r.render.KeepsLevel c := by
  refine keepsLevel_ofSteps fun step mem => ?_
  rw [List.mem_append] at mem
  refine mem.elim (fun comment => ?_) (Page.Step.lines_onlyLines r.declaration step)
  cases described : r.description with
  | none => simp [described] at comment
  | some description =>
    rw [described] at comment
    exact Page.Step.commentBlock_onlyLines _ step comment

theorem Member.keepsLevel_render (level : Nat) (m : Member) : (m.render c level).KeepsLevel c := by
  unfold render
  cases c.memberReplacements.get? m.doclet.longname with
  | some replacement => exact replacement.keepsLevel_render
  | none =>
    show (m.renderOwn c level).KeepsLevel c
    unfold renderOwn
    cases m.form with
    | property => exact (keepsLevel_docs _ _ _ _).append (keepsLevel_line _)
    | method => exact (keepsLevel_docs _ _ _ _).append (keepsLevel_line _)

theorem Constructor.keepsLevel_render (k : Constructor) : (k.render c).KeepsLevel c :=
  (keepsLevel_docs _ _ _ _).append (keepsLevel_line _)

theorem AddedInterface.keepsLevel_render (i : AddedInterface) : i.render.KeepsLevel c := by
  refine KeepsLevel.block _ (keepsLevel_ofSteps fun step mem => ?_)
  obtain ⟨member, -, rfl⟩ := List.mem_map.1 mem
  exact ⟨_, rfl⟩

theorem Doclet.keepsLevel_renderTypedef (d : Doclet) : (d.renderTypedef c).KeepsLevel c := by
  unfold renderTypedef
  split
  · exact (keepsLevel_docs _ _ _ _).append (keepsLevel_line _)
  · refine (keepsLevel_docs _ _ _ _).append ?_
    unfold aliasLines
    split
    · exact (keepsLevel_line _).append (keepsLevel_line _)
    · exact keepsLevel_line _

/-- What a class has in its block in front of its members. -/
theorem Doclet.keepsLevel_classTop (d : Doclet) :
    (d.surplusParents ++
      ((Declaration.constructor? d).map (Constructor.render c)).getD {}).KeepsLevel c := by
  refine KeepsLevel.append ?_ ?_
  · unfold surplusParents
    split
    · exact keepsLevel_finding _
    · exact keepsLevel_empty
  · cases Declaration.constructor? d with
    | none => exact keepsLevel_empty
    | some k => exact k.keepsLevel_render

end KeepsLevel

namespace Declaration

variable {c : Config}

mutual

/-- **A declaration ends at the level at which it starts.** -/
theorem keepsLevel_render : ∀ (level : Nat) (d : Declaration), (d.render c level).KeepsLevel c
  | level, .classType d isPublic members => by
    have inner := keepsLevel_renderPublic (level + 1) members
    unfold render
    exact (keepsLevel_docs _ _ _ _).append (.block _ (d.keepsLevel_classTop.append inner))
  | level, .typedef d isPublic [] => by
    unfold render
    exact d.keepsLevel_renderTypedef
  | level, .typedef d isPublic (first :: rest) => by
    have inner := (keepsLevel_render (level + 1) first).append
      (keepsLevel_renderAll (level + 1) rest)
    unfold render
    exact (keepsLevel_docs _ _ _ _).append (.block _ inner)
  | level, .member m => m.keepsLevel_render level
  | _, .ctor k => k.keepsLevel_render
  | _, .addedInterface i => i.keepsLevel_render
  | _, .addedAlias _ => Rendering.keepsLevel_line _

theorem keepsLevel_renderPublic :
    ∀ (level : Nat) (ds : List Declaration), (renderPublic c level ds).KeepsLevel c
  | _, [] => Rendering.keepsLevel_empty
  | level, d :: rest => by
    unfold renderPublic
    split
    · exact (keepsLevel_render level d).append (keepsLevel_renderPublic level rest)
    · exact keepsLevel_renderPublic level rest

theorem keepsLevel_renderAll :
    ∀ (level : Nat) (ds : List Declaration), (renderAll c level ds).KeepsLevel c
  | _, [] => Rendering.keepsLevel_empty
  | level, d :: rest => (keepsLevel_render level d).append (keepsLevel_renderAll level rest)

end

end Declaration

/-! ## What there is to report does not depend on the level -/

namespace Rendering

variable {c : Config}

/-- There is nothing to report about the lines around the body of a block but the header. -/
@[simp] theorem findings_block (header : Line) (body : Rendering) :
    (block header body).findings c = header.flatMap (Piece.findings c) ++ body.findings c := by
  simp [block, findings, Entry.findings, Piece.findings]

end Rendering

/-- What a member starts with is plain text, whatever the level. -/
theorem Member.findings_render (c : Config) (level : Nat) (m : Member) :
    (m.render c level).findings c = (m.render c 0).findings c := by
  have own : (m.renderOwn c level).findings c = (m.renderOwn c 0).findings c := by
    unfold renderOwn
    cases m.form with
    | property =>
      rw [Rendering.findings_append, Rendering.findings_append]
      rfl
    | method =>
      rw [Rendering.findings_append, Rendering.findings_append]
      rfl
  unfold render
  cases c.memberReplacements.get? m.doclet.longname with
  | some replacement => rfl
  | none => exact own

namespace Declaration

variable {c : Config}

mutual

/-- **What there is to report about a declaration does not depend on its level.** -/
theorem findings_render :
    ∀ (level : Nat) (d : Declaration), (d.render c level).findings c = (d.render c 0).findings c
  | level, .classType d isPublic members => by
    have inner := (findings_renderPublic (level + 1) members).trans
      (findings_renderPublic (0 + 1) members).symm
    have header : (d.classHeader c level).flatMap (Piece.findings c) =
        (d.classHeader c 0).flatMap (Piece.findings c) := rfl
    unfold render
    simp only [Rendering.findings_append, Rendering.findings_block, header, inner]
  | level, .typedef d isPublic [] => by
    unfold render
    rfl
  | level, .typedef d isPublic (first :: rest) => by
    have head := (findings_render (level + 1) first).trans (findings_render (0 + 1) first).symm
    have inner := (findings_renderAll (level + 1) rest).trans (findings_renderAll (0 + 1) rest).symm
    unfold render
    simp only [Rendering.findings_append, Rendering.findings_block, head, inner]
  | level, .member m => m.findings_render c level
  | _, .ctor _ => rfl
  | _, .addedInterface _ => rfl
  | _, .addedAlias _ => rfl

/-- There is to report what there is about each public declaration. -/
theorem findings_renderPublic :
    ∀ (level : Nat) (ds : List Declaration),
      (renderPublic c level ds).findings c =
        (ds.filter Declaration.isPublic).flatMap fun d => (d.render c 0).findings c
  | _, [] => rfl
  | level, d :: rest => by
    have head := findings_render level d
    have inner := findings_renderPublic level rest
    unfold renderPublic
    by_cases shown : d.isPublic = true
    · simp only [shown, if_true, Rendering.findings_append, head, inner, List.filter_cons,
        List.flatMap_cons]
    · simp only [shown, if_false, inner, List.filter_cons, Bool.false_eq_true]

/-- There is to report what there is about each declaration. -/
theorem findings_renderAll :
    ∀ (level : Nat) (ds : List Declaration),
      (renderAll c level ds).findings c = ds.flatMap fun d => (d.render c 0).findings c
  | _, [] => rfl
  | level, d :: rest => by
    have head := findings_render level d
    have inner := findings_renderAll level rest
    unfold renderAll
    rw [Rendering.findings_append, head, inner, List.flatMap_cons]

end

end Declaration

/-! ## A configuration without `declare` -/

/-- The configuration with `declare` turned off. -/
def Config.undeclared (c : Config) : Config := { c with doNotDeclareTopLevelElements := true }

section Undeclared

variable {c : Config}

theorem Line.print_undeclared (line : Line) : line.print c.undeclared = line.print c := by
  induction line with
  | nil => rfl
  | cons piece rest ih =>
    show piece.print c.undeclared ++ Line.print c.undeclared rest = _
    rw [ih]
    cases piece <;> rfl

/-- How a rendering is written has nothing to do with `declare`. -/
theorem Rendering.steps_undeclared (r : Rendering) : r.steps c.undeclared = r.steps c := by
  unfold steps
  congr 1
  funext entry
  cases entry with
  | line pieces => exact congrArg (some <| Page.Step.line ·) (Line.print_undeclared pieces)
  | _ => rfl

theorem declareWord_undeclared (level : Nat) : declareWord c.undeclared level = "" := by
  simp [declareWord, Config.declaresTopLevel, Config.undeclared]

/-- Inside a block there is no `declare`. -/
theorem declareWord_of_pos {level : Nat} (inside : 0 < level) : declareWord c level = "" := by
  simp [declareWord, Nat.ne_of_gt inside]

theorem Member.render_undeclared {level : Nat} (inside : 0 < level) (m : Member) :
    m.render c.undeclared level = m.render c level := by
  have same : declareWord c.undeclared level = declareWord c level := by
    rw [declareWord_undeclared, declareWord_of_pos inside]
  have own : m.renderOwn c.undeclared level = m.renderOwn c level := by
    unfold renderOwn propertyLine methodLine propertyHead methodHead
    rw [same]
    rfl
  unfold render
  rw [own]
  rfl

namespace Declaration

mutual

/-- **Inside a block nothing depends on `declare`.** -/
theorem render_undeclared {level : Nat} (inside : 0 < level) :
    ∀ d : Declaration, d.render c.undeclared level = d.render c level
  | .classType d isPublic members => by
    have inner := renderPublic_undeclared (Nat.succ_pos level) members
    have header : d.classHeader c.undeclared level = d.classHeader c level := by
      unfold Doclet.classHeader
      rw [declareWord_undeclared, declareWord_of_pos inside]
    unfold render
    rw [inner, header]
    rfl
  | .typedef d isPublic [] => by
    unfold render
    rfl
  | .typedef d isPublic (first :: rest) => by
    have head := render_undeclared (Nat.succ_pos level) first
    have inner := renderAll_undeclared (Nat.succ_pos level) rest
    unfold render
    rw [head, inner]
    rfl
  | .member m => m.render_undeclared inside
  | .ctor _ => rfl
  | .addedInterface _ => rfl
  | .addedAlias _ => rfl

theorem renderPublic_undeclared {level : Nat} (inside : 0 < level) :
    ∀ ds : List Declaration, renderPublic c.undeclared level ds = renderPublic c level ds
  | [] => rfl
  | d :: rest => by
    unfold renderPublic
    rw [render_undeclared inside d, renderPublic_undeclared inside rest]

theorem renderAll_undeclared {level : Nat} (inside : 0 < level) :
    ∀ ds : List Declaration, renderAll c.undeclared level ds = renderAll c level ds
  | [] => rfl
  | d :: rest => by
    unfold renderAll
    rw [render_undeclared inside d, renderAll_undeclared inside rest]

end

end Declaration

end Undeclared

/-! ## Lines with `declare` -/

namespace Page

/-- A line against the same line of a run without `declare`: it is the same, or it stands at the
outermost level and has `declare` in front. -/
def DeclaredAs (line plain : Nat × String) : Prop :=
  line.1 = plain.1 ∧ (line.2 = plain.2 ∨ line.1 = 0 ∧ line.2 = "declare " ++ plain.2)

theorem DeclaredAs.refl (line : Nat × String) : DeclaredAs line line := ⟨rfl, Or.inl rfl⟩

theorem declaredAs_refl_all (lines : List (Nat × String)) :
    List.Forall₂ DeclaredAs lines lines :=
  List.forall₂_same.2 fun line _ => DeclaredAs.refl line

/-- A line that starts with the word for its level. -/
theorem declaredAs_word (c : Config) (text : String) :
    DeclaredAs (0, declareWord c 0 ++ text) (0, declareWord c.undeclared 0 ++ text) := by
  rw [declareWord_undeclared, String.empty_append]
  unfold declareWord
  split
  · exact ⟨rfl, Or.inr ⟨rfl, rfl⟩⟩
  · exact ⟨rfl, Or.inl (String.empty_append ..)⟩

end Page

namespace Rendering

/-- The lines of a rendering at the outermost level against those of a rendering without
`declare`. -/
def DeclaredAs (c : Config) (r plain : Rendering) : Prop :=
  List.Forall₂ Page.DeclaredAs (r.lines c 0) (plain.lines c.undeclared 0)

variable {c : Config} {first second plain plain' body : Rendering}

theorem DeclaredAs.refl (r : Rendering) : DeclaredAs c r r := by
  unfold DeclaredAs lines
  rw [steps_undeclared]
  exact Page.declaredAs_refl_all _

theorem DeclaredAs.append (h : DeclaredAs c first plain) (h' : DeclaredAs c second plain')
    (keeps : first.KeepsLevel c) (keeps' : plain.KeepsLevel c.undeclared) :
    DeclaredAs c (first ++ second) (plain ++ plain') := by
  unfold DeclaredAs
  rw [lines_append 0 keeps, lines_append 0 keeps']
  exact List.rel_append h h'

/-- The same text after the word of the outermost level. -/
theorem declaredAs_line (start : String) (rest : Line) :
    DeclaredAs c (line (.text (declareWord c 0 ++ start) :: rest))
      (line (.text (declareWord c.undeclared 0 ++ start) :: rest)) := by
  have written := Page.declaredAs_word c (start ++ Line.print c rest)
  rw [← String.append_assoc, ← String.append_assoc] at written
  refine List.Forall₂.cons ?_ List.Forall₂.nil
  show Page.DeclaredAs (0, declareWord c 0 ++ start ++ Line.print c rest)
    (0, declareWord c.undeclared 0 ++ start ++ Line.print c.undeclared rest)
  rwa [Line.print_undeclared]

/-- A block with the word of the outermost level in its header, and with the same body. -/
theorem declaredAs_block (start : String) (rest : Line) (keeps : body.KeepsLevel c) :
    DeclaredAs c (Rendering.block (.text (declareWord c 0 ++ start) :: rest) body)
      (Rendering.block (.text (declareWord c.undeclared 0 ++ start) :: rest) body) := by
  have keeps' : body.KeepsLevel c.undeclared := by
    intro level
    rw [steps_undeclared]
    exact keeps level
  have written := Page.declaredAs_word c (start ++ (Line.print c rest ++ " \x7b"))
  simp only [← String.append_assoc] at written
  have inner : body.lines c.undeclared 1 = body.lines c 1 := by
    unfold lines
    rw [steps_undeclared]
  unfold DeclaredAs
  rw [lines_block 0 _ keeps, lines_block 0 _ keeps', inner]
  refine List.Forall₂.cons ?_ (Page.declaredAs_refl_all _)
  show Page.DeclaredAs (0, declareWord c 0 ++ start ++ Line.print c rest ++ _)
    (0, declareWord c.undeclared 0 ++ start ++ Line.print c.undeclared rest ++ _)
  rwa [Line.print_undeclared]

end Rendering

namespace Member

open Rendering

variable (c : Config) (m : Member)

theorem declared_propertyLine :
    DeclaredAs c (line (m.propertyLine c 0)) (line (m.propertyLine c.undeclared 0)) := by
  unfold propertyLine propertyHead
  cases m.owner with
  | classBody => exact DeclaredAs.refl _
  | interfaceBody => exact DeclaredAs.refl _
  | moduleLevel =>
    simp only [String.append_assoc]
    exact declaredAs_line _ _

theorem declared_methodLine :
    DeclaredAs c (line (m.methodLine c 0)) (line (m.methodLine c.undeclared 0)) := by
  unfold methodLine methodHead
  cases m.owner with
  | classBody => exact DeclaredAs.refl _
  | interfaceBody => exact DeclaredAs.refl _
  | moduleLevel =>
    simp only [String.append_assoc]
    exact declaredAs_line _ _

theorem declared_renderOwn : DeclaredAs c (m.renderOwn c 0) (m.renderOwn c.undeclared 0) := by
  unfold renderOwn
  cases m.form with
  | property =>
    exact (DeclaredAs.refl _).append (m.declared_propertyLine c) (keepsLevel_docs _ _ _ _)
      (keepsLevel_docs _ _ _ _)
  | method =>
    exact (DeclaredAs.refl _).append (m.declared_methodLine c) (keepsLevel_docs _ _ _ _)
      (keepsLevel_docs _ _ _ _)

theorem declared_render : DeclaredAs c (m.render c 0) (m.render c.undeclared 0) := by
  unfold render
  rw [show c.undeclared.memberReplacements = c.memberReplacements from rfl]
  cases c.memberReplacements.get? m.doclet.longname with
  | some replacement => exact DeclaredAs.refl _
  | none => exact m.declared_renderOwn c

end Member

namespace Declaration

open Rendering

/-- **At the outermost level `declare` comes in front of some lines**, and that is all that it
changes. -/
theorem declared_render (c : Config) (d : Declaration) :
    DeclaredAs c (d.render c 0) (d.render c.undeclared 0) := by
  cases d with
  | classType d isPublic members =>
    have inner : renderPublic c.undeclared 1 members = renderPublic c 1 members :=
      renderPublic_undeclared Nat.one_pos members
    have keeps := d.keepsLevel_classTop.append (keepsLevel_renderPublic (c := c) 1 members)
    unfold render
    rw [inner]
    refine (DeclaredAs.refl _).append ?_ (keepsLevel_docs _ _ _ _) (keepsLevel_docs _ _ _ _)
    unfold Doclet.classHeader
    simp only [String.append_assoc]
    exact declaredAs_block _ _ keeps
  | typedef d isPublic members =>
    have same : (typedef d isPublic members).render c.undeclared 0 =
        (typedef d isPublic members).render c 0 := by
      cases members with
      | nil =>
        unfold render
        rfl
      | cons first rest =>
        unfold render
        rw [render_undeclared Nat.one_pos, renderAll_undeclared Nat.one_pos]
        rfl
    rw [same]
    exact DeclaredAs.refl _
  | member m => exact m.declared_render c
  | ctor k => exact DeclaredAs.refl _
  | addedInterface i => exact DeclaredAs.refl _
  | addedAlias a => exact DeclaredAs.refl _

theorem declared_renderAll (c : Config) (ds : List Declaration) :
    DeclaredAs c (renderAll c 0 ds) (renderAll c.undeclared 0 ds) := by
  induction ds with
  | nil => exact DeclaredAs.refl _
  | cons d rest ih =>
    exact (declared_render c d).append ih (keepsLevel_render 0 d) (keepsLevel_render 0 d)

end Declaration

end Ambient
