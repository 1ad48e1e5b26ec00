import Ambient.Proofs.Building
import Ambient.Proofs.Outline.Nesting
/-!
# Declarations leave the page at its level

For its members a declaration goes one level in, and the way out stands far below. A line that
depends on the level looks it up when its turn comes. So a way out too many or too few would show in
everything that is written later. At the outermost level a way out too many would not even be
noticed at once, as it is cut off there.

A rendering is made for the level at which it starts. Here its entries are carried out one by one,
on a page together with what was reported before. This says what there is at every moment on the
way.

## Main definitions

* `Text.WholeLines`: a text that is empty or ends with a line end.
* `Draft`: a page, with what was reported while it was written.
* `Draft.Continues`: a draft goes on where another one stops.
* `Rendering.Restores`: what a rendering does on the way, and what it leaves behind.
* `Declaration.write`: write a declaration piece by piece, each at the level that the page has then.

## Main statements

* `Rendering.KeepsLevel.le_levelAfter`: what ends at the level at which it starts, wherever that is,
  was never further out.
* `Rendering.KeepsLevel.restores`: a rendering that keeps the level restores every draft.
* `Declaration.write_eq`: piece by piece, a declaration is written as it is rendered.
* `Declaration.write_restores`: every declaration restores every draft.
* `Outline.restores_render`: so does every tree of modules.
* `wholeLines_declarations`: a run writes whole lines.
-/

namespace Ambient

/-! ## Levels on the way -/

namespace Page

variable {level other : Nat}

/-- Steps that start further in never come further out. -/
theorem levelAfter_mono (le : level ≤ other) (steps : List Step) :
    levelAfter level steps ≤ levelAfter other steps := by
  induction steps generalizing level other with
  | nil => exact le
  | cons step rest ih =>
    cases step with
    | indent => exact ih (Nat.succ_le_succ le)
    | unindent => exact ih (Nat.sub_le_sub_right le 1)
    | line text => exact ih le

/-- Steps do not take two levels further apart. What is cut off at the outermost level brings them
closer. -/
theorem levelAfter_add_le (level apart : Nat) (steps : List Step) :
    levelAfter (level + apart) steps ≤ levelAfter level steps + apart := by
  induction steps generalizing level with
  | nil => exact Nat.le_refl _
  | cons step rest ih =>
    cases step with
    | indent =>
      have inner := ih (level + 1)
      rwa [Nat.add_right_comm] at inner
    | unindent =>
      have inner := ih (level - 1)
      have closer : level + apart - 1 ≤ level - 1 + apart := by omega
      exact Nat.le_trans (levelAfter_mono closer rest) inner
    | line text => exact ih level

end Page

namespace Rendering

variable {c : Config} {r : Rendering} {done rest : List Page.Step}

/-- **What ends at the level at which it starts, wherever that is, was never further out.** It need
only be looked at from the outermost level: a way out is cut off there, so one that goes further out
would end further in than it started. -/
theorem KeepsLevel.le_levelAfter (h : r.KeepsLevel c) (split : r.steps c = done ++ rest)
    (level : Nat) : level ≤ Page.levelAfter level done := by
  have ends : ∀ start, Page.levelAfter (Page.levelAfter start done) rest = start := by
    intro start
    rw [← Page.levelAfter_append, ← split, h start]
  -- The rest comes out at zero from wherever a start at zero has led, so also from zero itself.
  have zero : Page.levelAfter 0 rest = 0 :=
    Nat.le_zero.1 (Nat.le_trans (Page.levelAfter_mono (Nat.zero_le _) rest) (Nat.le_of_eq (ends 0)))
  calc level = Page.levelAfter (0 + Page.levelAfter level done) rest := by
        rw [Nat.zero_add, ends level]
    _ ≤ Page.levelAfter 0 rest + Page.levelAfter level done := Page.levelAfter_add_le 0 _ rest
    _ = Page.levelAfter level done := by rw [zero, Nat.zero_add]

-- To keep the level from one start alone says less.
example : Page.levelAfter 1 [.unindent, .indent] = 1 ∧ Page.levelAfter 0 [.unindent, .indent] = 1 :=
  ⟨rfl, rfl⟩

/-- So each way out starts further in than the whole did, and none is cut off. -/
theorem KeepsLevel.lt_levelAfter (h : r.KeepsLevel c)
    (split : r.steps c = done ++ .unindent :: rest) (level : Nat) :
    level < Page.levelAfter level done := by
  have split' : r.steps c = (done ++ [.unindent]) ++ rest := by
    rw [split, List.append_assoc, List.singleton_append]
  have out := h.le_levelAfter split' (level + 1)
  rw [Page.levelAfter_append] at out
  have closer := Page.levelAfter_add_le level 1 done
  change level + 1 ≤ Page.levelAfter (level + 1) done - 1 at out
  omega

end Rendering

/-! ## Whole lines -/

namespace Text

/-- A text of whole lines: it is empty or ends with a line end. -/
def WholeLines (text : String) : Prop := text = "" ∨ ∃ start, text = start ++ "\n"

theorem wholeLines_lineAt (level : Nat) (text : String) : WholeLines (Page.lineAt level text) := by
  unfold Page.lineAt
  split
  · exact Or.inr ⟨"", rfl⟩
  · exact Or.inr ⟨_, rfl⟩

theorem WholeLines.append {first second : String} (h : WholeLines first) (h' : WholeLines second) :
    WholeLines (first ++ second) := by
  rcases h' with rfl | ⟨start, rfl⟩
  · rwa [String.append_empty]
  · exact Or.inr ⟨first ++ start, (String.append_assoc ..).symm⟩

end Text

/-- Steps write whole lines behind what is there. -/
theorem Page.exists_text_run (p : Page) (steps : List Step) :
    ∃ added, Text.WholeLines added ∧ (p.run steps).text = p.text ++ added := by
  rw [text_run]
  generalize p.text = text
  induction linesFrom p.level steps generalizing text with
  | nil => exact ⟨"", Or.inl rfl, (String.append_empty ..).symm⟩
  | cons line rest ih =>
    obtain ⟨added, whole, written⟩ := ih (text ++ lineAt line.1 line.2)
    refine ⟨lineAt line.1 line.2 ++ added, (Text.wholeLines_lineAt _ _).append whole, ?_⟩
    exact written.trans (String.append_assoc ..)

/-! ## Drafts -/

/-- A page, with what was reported while it was written. -/
structure Draft where
  page : Page
  findings : List Finding

namespace Draft

variable {c : Config}

/-- The level at which the next line stands. -/
def level (w : Draft) : Nat := w.page.level

/-- Carry out one entry of a rendering: its step on the page, and its report. -/
def apply (c : Config) (w : Draft) (entry : Rendering.Entry) : Draft where
  page := w.page.run (entry.step? c).toList
  findings := w.findings ++ entry.findings c

/-- Carry out entries from left to right. -/
def run (c : Config) (w : Draft) (entries : List Rendering.Entry) : Draft :=
  entries.foldl (apply c) w

/-- Carry out a rendering. -/
def write (c : Config) (w : Draft) (r : Rendering) : Draft := w.run c r.entries

/-- A draft goes on where another one stops: on the page there are whole lines behind what was
there, and what was reported is still there in front. -/
structure Continues (earlier later : Draft) : Prop where
  text : ∃ added, Text.WholeLines added ∧ later.page.text = earlier.page.text ++ added
  findings : earlier.findings <+: later.findings

theorem run_append (w : Draft) (first second : List Rendering.Entry) :
    w.run c (first ++ second) = (w.run c first).run c second :=
  List.foldl_append

theorem write_append (w : Draft) (first second : Rendering) :
    w.write c (first ++ second) = (w.write c first).write c second :=
  w.run_append _ _

/-- The page and the report do not depend on each other. -/
theorem run_eq (w : Draft) (entries : List Rendering.Entry) :
    w.run c entries =
      { page := w.page.run (entries.filterMap (Rendering.Entry.step? c))
        findings := w.findings ++ entries.flatMap (Rendering.Entry.findings c) } := by
  induction entries generalizing w with
  | nil => rw [List.flatMap_nil, List.append_nil]; rfl
  | cons entry rest ih =>
    show (w.apply c entry).run c rest = _
    rw [ih, List.flatMap_cons, ← List.append_assoc, List.filterMap_cons]
    unfold apply
    cases entry.step? c <;> rfl

/-- A rendering leaves the page that its steps make, and its report behind what was reported. -/
theorem write_eq (w : Draft) (r : Rendering) :
    w.write c r = { page := w.page.run (r.steps c), findings := w.findings ++ r.findings c } :=
  w.run_eq r.entries

theorem level_run (w : Draft) (entries : List Rendering.Entry) :
    (w.run c entries).level =
      Page.levelAfter w.level (entries.filterMap (Rendering.Entry.step? c)) := by
  rw [run_eq]
  exact Page.level_run _ _

theorem level_write {r : Rendering} (keeps : r.KeepsLevel c) (w : Draft) :
    (w.write c r).level = w.level := by
  rw [write_eq]
  exact keeps.level_run w.page

theorem continues_run (w : Draft) (entries : List Rendering.Entry) :
    w.Continues (w.run c entries) := by
  rw [run_eq]
  exact ⟨Page.exists_text_run _ _, List.prefix_append _ _⟩

end Draft

/-! ## Renderings that restore a draft -/

namespace Rendering

variable {c : Config} {r : Rendering}

/-- What a rendering does to a draft on which it is carried out. -/
structure Restores (c : Config) (r : Rendering) (w : Draft) : Prop where
  /-- In the end the draft is at the level at which it started. -/
  level_eq : (w.write c r).level = w.level
  /-- It was never further out. -/
  le_level : ∀ done, done <+: r.entries → w.level ≤ (w.run c done).level
  /-- Every way out starts further in, so none of them is cut off at the outermost level. -/
  lt_level : ∀ done, done ++ [.unindent] <+: r.entries → w.level < (w.run c done).level
  /-- At every moment the draft goes on where it was at any moment before. -/
  continues : ∀ before after, before <+: after → after <+: r.entries →
    (w.run c before).Continues (w.run c after)

/-- **A rendering that keeps the level restores every draft.** -/
theorem KeepsLevel.restores (h : r.KeepsLevel c) (w : Draft) : r.Restores c w where
  level_eq := Draft.level_write h w
  le_level := by
    rintro done ⟨rest, split⟩
    have way : r.steps c = done.filterMap (Entry.step? c) ++ rest.filterMap (Entry.step? c) := by
      rw [steps, ← split, List.filterMap_append]
    rw [Draft.level_run]
    exact h.le_levelAfter way w.level
  lt_level := by
    rintro done ⟨rest, split⟩
    have way : r.steps c =
        done.filterMap (Entry.step? c) ++ .unindent :: rest.filterMap (Entry.step? c) := by
      rw [steps, ← split, List.filterMap_append, List.filterMap_append, List.append_assoc]
      rfl
    rw [Draft.level_run]
    exact h.lt_levelAfter way w.level
  continues := by
    rintro before after ⟨between, rfl⟩ -
    rw [Draft.run_append]
    exact Draft.continues_run _ _

end Rendering

/-! ## Declarations written piece by piece -/

namespace Draft

variable {c : Config}

/-- Write a block: a line that opens it, its body one level further in, and a closing brace. -/
def block (c : Config) (header : Line) (body : Draft → Draft) (w : Draft) : Draft :=
  let opened := w.run c [.line (header ++ [.text " \x7b"]), .indent]
  (body opened).run c [.unindent, .line [.text "\x7d"]]

/-- A block is written as it is rendered if its body is, one level further in. -/
theorem block_eq {w : Draft} {body : Draft → Draft} {inner : Rendering} (header : Line)
    (same : ∀ v : Draft, v.level = w.level + 1 → body v = v.write c inner) :
    w.block c header body = w.write c (.block header inner) := by
  have filled := same (w.run c [.line (header ++ [.text " \x7b"]), .indent]) rfl
  show (body (w.run c _)).run c _ = w.run c _
  rw [filled]
  show ((w.run c _).run c inner.entries).run c _ = w.run c _
  rw [← run_append, ← run_append]
  rfl

end Draft

namespace Member

variable {c : Config}

/-- Write a member that the configuration does not replace. Its line looks up the level behind the
comment. -/
def writeOwn (c : Config) (w : Draft) (m : Member) : Draft :=
  match m.form with
  | .property =>
    let documented := w.write c (docs c m.doclet m.doclet.description "property" [])
    documented.write c (.line (m.propertyLine c documented.level))
  | .method =>
    let documented := w.write c (docs c m.doclet m.doclet.description "function"
      (tagLines m.doclet.params m.doclet.returns))
    documented.write c (.line (m.methodLine c documented.level))

/-- Write a member where the page stands. -/
def write (c : Config) (w : Draft) (m : Member) : Draft :=
  match c.memberReplacements.get? m.doclet.longname with
  | some replacement => w.write c replacement.render
  | none => m.writeOwn c w

theorem write_eq (w : Draft) (m : Member) : m.write c w = w.write c (m.render c w.level) := by
  have own : m.writeOwn c w = w.write c (m.renderOwn c w.level) := by
    unfold writeOwn renderOwn
    cases m.form with
    | property =>
      dsimp only
      rw [Draft.level_write (keepsLevel_docs _ _ _ _), Draft.write_append]
    | method =>
      dsimp only
      rw [Draft.level_write (keepsLevel_docs _ _ _ _), Draft.write_append]
  unfold write render
  cases c.memberReplacements.get? m.doclet.longname with
  | some replacement => rfl
  | none => exact own

end Member

namespace Declaration

variable {c : Config}

mutual

/-- Write a declaration where the page stands: each piece looks up the level when its turn comes. -/
def write (c : Config) (w : Draft) : Declaration → Draft
  | .classType d _ members =>
    let documented := w.write c (d.classDocs c)
    documented.block c (d.classHeader c documented.level) fun opened =>
      let begun := (opened.write c d.surplusParents).write c
        (((constructor? d).map (Constructor.render c)).getD {})
      writePublic c begun members
  | .typedef d _ [] => w.write c (d.renderTypedef c)
  | .typedef d _ (first :: rest) =>
    let documented := w.write c (docs c d d.description "type" [])
    documented.block c [.text ("interface " ++ d.typedefName)] fun opened =>
      writeAll c (write c opened first) rest
  | .member m => m.write c w
  | .ctor k => w.write c (k.render c)
  | .addedInterface i =>
    w.block c [.text ("interface " ++ i.name)] fun opened =>
      opened.write c (.ofSteps (i.members.map fun m => .line (AddedInterface.memberLine m)))
  | .addedAlias a => w.write c a.render

/-- Write the public ones of some declarations. -/
def writePublic (c : Config) (w : Draft) : List Declaration → Draft
  | [] => w
  | d :: rest => if d.isPublic then writePublic c (write c w d) rest else writePublic c w rest

/-- Write some declarations. -/
def writeAll (c : Config) (w : Draft) : List Declaration → Draft
  | [] => w
  | d :: rest => writeAll c (write c w d) rest

end

mutual

/-- **Piece by piece, a declaration is written as it is rendered.** Each piece of a rendering is
made for the level that the page has when its turn comes. -/
theorem write_eq : ∀ (w : Draft) (d : Declaration), d.write c w = w.write c (d.render c w.level)
  | w, .classType d isPublic members => by
    -- The comment keeps the level, so the header looks up the one at the start.
    have documented : (w.write c (d.classDocs c)).level = w.level :=
      Draft.level_write (keepsLevel_docs _ _ _ _) w
    unfold write render
    dsimp only
    rw [Draft.write_append, documented]
    refine Draft.block_eq _ fun v here => ?_
    have top := Draft.level_write (c := c) d.keepsLevel_classTop v
    rw [← Draft.write_append, writePublic_eq, top, here, documented, ← Draft.write_append]
  | w, .typedef d isPublic [] => by
    unfold write render
    rfl
  | w, .typedef d isPublic (first :: rest) => by
    have documented : (w.write c (docs c d d.description "type" [])).level = w.level :=
      Draft.level_write (keepsLevel_docs _ _ _ _) w
    unfold write render
    rw [Draft.write_append]
    refine Draft.block_eq _ fun v here => ?_
    rw [write_eq v first, writeAll_eq, Draft.level_write (keepsLevel_render _ first), here,
      documented, ← Draft.write_append]
  | w, .member m => m.write_eq w
  | _, .ctor _ => rfl
  | _, .addedInterface _ => Draft.block_eq _ fun _ _ => rfl
  | _, .addedAlias _ => rfl

theorem writePublic_eq :
    ∀ (w : Draft) (ds : List Declaration),
      writePublic c w ds = w.write c (renderPublic c w.level ds)
  | _, [] => rfl
  | w, d :: rest => by
    unfold writePublic renderPublic
    split
    · rw [write_eq w d, writePublic_eq, Draft.level_write (keepsLevel_render _ d),
        ← Draft.write_append]
    · exact writePublic_eq w rest

theorem writeAll_eq :
    ∀ (w : Draft) (ds : List Declaration), writeAll c w ds = w.write c (renderAll c w.level ds)
  | _, [] => rfl
  | w, d :: rest => by
    unfold writeAll renderAll
    rw [write_eq w d, writeAll_eq, Draft.level_write (keepsLevel_render _ d), ← Draft.write_append]

end

/-- **Every declaration restores every draft.** Piece by piece it is written as it is rendered, and
page and report are those of a run. Whole lines come behind what was on the page and reports behind
what was reported. The level is never further out than at the start, where it is again in the
end. -/
theorem write_restores (c : Config) (d : Declaration) (w : Draft) :
    d.write c w = w.write c (d.render c w.level) ∧
      w.write c (d.render c w.level) =
        { page := w.page.run ((d.render c w.level).steps c)
          findings := w.findings ++ (d.render c w.level).findings c } ∧
      (d.render c w.level).Restores c w :=
  ⟨write_eq w d, w.write_eq _, (keepsLevel_render w.level d).restores w⟩

end Declaration

namespace Outline

/-- **Every tree of modules restores every draft.** -/
theorem restores_render (c : Config) (t : Outline) (w : Draft) :
    (t.render c w.level).Restores c w :=
  (keepsLevel_render w.level t).restores w

end Outline

/-- **A run writes whole lines**, so what is put behind its declarations starts a line. -/
theorem wholeLines_declarations (c : Config) (ds : List Doclet) (earlier : List Finding) :
    Text.WholeLines (generate c ds earlier).declarations := by
  rw [declarations_generate]
  obtain ⟨added, whole, text⟩ := Page.exists_text_run {}
    (((Outline.ofDeclarations (closedCatalogue c ds).emitted).render c 0).steps c)
  rwa [text, String.empty_append]

end Ambient
