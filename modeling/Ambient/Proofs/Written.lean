import Ambient.Proofs.Alike.Runs
import Ambient.Proofs.Representation
/-!
# Which members are written

A class writes its public members, an interface writes all of its members, and a module writes its
public ones. So whether a member is written is a matter of three flags: its own, that of the type
that owns it, and of what kind that type is. In an interface its own flag is not asked for.

## Main definitions

* `Declaration.shown`: a declaration without the members that it does not write.
* `Rendering.Within`: a rendering is a piece of another one.
* `Catalogue.written`: the declarations that a catalogue writes, members of types included.

## Main statements

* `Declaration.alike_shown`: no run can tell a declaration from what it shows.
* `Outline.within_render`: every declaration of a tree is written in one piece.
* `Catalogue.member_mem_written_iff`: the members that a catalogue writes.
* `written_generate`: the members that a run writes.
* `generate_private_interface_member`: a private member that is written.
-/

namespace Ambient

/-! ## What a declaration shows -/

namespace Declaration

variable {c : Config}

/-- The declaration without the members that it does not write: those of a class that are not
public. -/
def shown : Declaration → Declaration
  | .classType d isPublic members => .classType d isPublic (members.filter Declaration.isPublic)
  | d => d

theorem visitPublic_filter {σ : Type} (rec : Recorder σ) (ds : List Declaration) (s : σ) :
    visitPublic rec (ds.filter isPublic) s = visitPublic rec ds s := by
  induction ds generalizing s with
  | nil => rfl
  | cons d rest ih =>
    by_cases isPublic : d.isPublic = true
    · rw [List.filter_cons_of_pos isPublic, visitPublic, visitPublic, ih]
    · rw [List.filter_cons_of_neg isPublic, visitPublic, if_neg isPublic, ih]

theorem renderPublic_filter (c : Config) (level : Nat) (ds : List Declaration) :
    renderPublic c level (ds.filter isPublic) = renderPublic c level ds := by
  induction ds with
  | nil => rfl
  | cons d rest ih =>
    by_cases isPublic : d.isPublic = true
    · rw [List.filter_cons_of_pos isPublic, renderPublic, renderPublic, ih]
    · rw [List.filter_cons_of_neg isPublic, renderPublic, if_neg isPublic, ih]

/-- **No run can tell a declaration from what it shows.** -/
theorem alike_shown (c : Config) (d : Declaration) : d.Alike c d.shown := by
  cases d with
  | classType d isPublic members =>
    refine ⟨⟨rfl, rfl, rfl, ?_⟩, ?_⟩
    · intro level
      unfold shown render
      rw [renderPublic_filter]
    · intro r
      unfold shown collect visit
      rw [visitPublic_filter]
  | _ => exact Alike.refl c _

end Declaration

/-! ## Pieces of renderings -/

namespace Rendering

/-- The rendering is a piece of another one, without gaps. -/
def Within (part whole : Rendering) : Prop := part.entries <:+: whole.entries

namespace Within

variable {part middle whole : Rendering}

theorem refl (r : Rendering) : r.Within r := List.infix_refl r.entries

theorem trans (h : part.Within middle) (h' : middle.Within whole) : part.Within whole :=
  List.IsInfix.trans h h'

theorem append_right (h : part.Within whole) (later : Rendering) : part.Within (whole ++ later) :=
  List.IsInfix.trans h (List.prefix_append _ _).isInfix

theorem append_left (h : part.Within whole) (earlier : Rendering) :
    part.Within (earlier ++ whole) :=
  List.IsInfix.trans h (List.suffix_append _ _).isInfix

/-- A block has its body in one piece. -/
theorem block (h : part.Within whole) (header : Line) : part.Within (block header whole) :=
  List.IsInfix.trans h ⟨_ :: [_], _, rfl⟩

end Within

end Rendering

namespace Declaration

variable {c : Config} {d : Declaration} {ds : List Declaration}

theorem within_renderAll (mem : d ∈ ds) (level : Nat) :
    (d.render c level).Within (renderAll c level ds) := by
  induction ds with
  | nil => cases mem
  | cons first rest ih =>
    unfold renderAll
    rcases List.mem_cons.1 mem with rfl | later
    · exact (Rendering.Within.refl _).append_right _
    · exact (ih later).append_left _

theorem within_renderPublic (mem : d ∈ ds) (isPublic : d.isPublic = true) (level : Nat) :
    (d.render c level).Within (renderPublic c level ds) := by
  induction ds with
  | nil => cases mem
  | cons first rest ih =>
    unfold renderPublic
    rcases List.mem_cons.1 mem with rfl | later
    · rw [if_pos isPublic]
      exact (Rendering.Within.refl _).append_right _
    · split
      · exact (ih later).append_left _
      · exact ih later

/-- A type writes the members that it shows, each in one piece. -/
theorem within_render {m : Declaration} (mem : m ∈ d.shown.members) (level : Nat) :
    (m.render c (level + 1)).Within (d.render c level) := by
  cases d with
  | classType d isPublic members =>
    obtain ⟨inside, shows⟩ := List.mem_filter.1 mem
    rw [render]
    exact (((within_renderPublic inside shows _).append_left _).block _).append_left _
  | typedef d isPublic members =>
    cases members with
    | nil => cases mem
    | cons first rest =>
      have all : (m.render c (level + 1)).Within (renderAll c (level + 1) (first :: rest)) :=
        within_renderAll mem _
      rw [renderAll] at all
      rw [render]
      exact (all.block _).append_left _
  | _ => cases mem

end Declaration

namespace Outline

variable {c : Config} {d : Declaration}

mutual

/-- **Every declaration of a tree is written in one piece.** -/
theorem within_render : ∀ (indentation : Nat) (t : Outline), d ∈ t.contents →
    ∃ level, (d.render c level).Within (t.render c indentation)
  | indentation, .level _ types members children, mem => by
    rw [contents, List.mem_append, List.mem_append] at mem
    unfold render
    rcases mem with (ofTypes | ofMembers) | inside
    · exact ⟨_, ((Declaration.within_renderAll ofTypes _).append_right _).append_right _⟩
    · exact ⟨_, ((Declaration.within_renderAll ofMembers _).append_left _).append_right _⟩
    · obtain ⟨level, within⟩ := within_renderChildren indentation children inside
      exact ⟨level, within.append_left _⟩

theorem within_renderChildren : ∀ (indentation : Nat) (children : List (String × Outline)),
    d ∈ contentsOf children →
      ∃ level, (d.render c level).Within (renderChildren c indentation children)
  | _, [], mem => by cases mem
  | indentation, (_, child) :: rest, mem => by
    rw [contentsOf, List.mem_append] at mem
    unfold renderChildren
    rcases mem with here | later
    · obtain ⟨level, within⟩ := within_render (indentation + 1) child here
      exact ⟨level, (within.block _).append_right _⟩
    · obtain ⟨level, within⟩ := within_renderChildren indentation rest later
      exact ⟨level, within.append_left _⟩

end

/-- The tree of what some declarations show is written in the same way. -/
theorem render_shown (c : Config) (ds : List Declaration) (indentation : Nat) :
    (ofDeclarations (ds.map Declaration.shown)).render c indentation =
      (ofDeclarations ds).render c indentation := by
  have same : List.Forall₂ (Declaration.SameText c) ds (ds.map Declaration.shown) :=
    List.forall₂_map_right_iff.2 (List.forall₂_same.2 fun d _ => (d.alike_shown c).toSameText)
  exact (arranged_ofDeclarations ds).render_sameText same (arranged_ofDeclarations _) indentation

end Outline

/-! ## What a catalogue writes -/

namespace Catalogue

variable {c : Config} {ds : List Doclet} {k : Catalogue} {name : String}

/-- What is written, with the members of types. -/
def written (k : Catalogue) : List Declaration :=
  k.emitted.flatMap fun d => d :: d.shown.members

theorem mem_shown_members {e : TypeEntry} {m : Member} :
    Declaration.member m ∈ e.toDeclaration.shown.members ↔
      m ∈ e.members ∧ (e.isClass = true → m.isPublic = true) := by
  have listed : Declaration.member m ∈ e.members.map Declaration.member ↔ m ∈ e.members := by
    simp
  unfold TypeEntry.toDeclaration
  by_cases isClass : e.isClass = true
  · rw [if_pos isClass]
    show Declaration.member m ∈ (e.members.map Declaration.member).filter Declaration.isPublic ↔ _
    rw [List.mem_filter, listed]
    exact and_congr_right fun _ => ⟨fun isPublic _ => isPublic, fun shows => shows isClass⟩
  · rw [if_neg isClass]
    exact listed.trans (and_iff_left fun isClass' => absurd isClass' isClass).symm

/-- **The members that a catalogue writes**: the public ones of modules and of public classes, and
all of public typedefs. -/
theorem member_mem_written_iff {m : Member} :
    Declaration.member m ∈ k.written ↔
      (m ∈ k.moduleMembers ∧ m.isPublic = true) ∨
      ∃ e ∈ k.types.values, e.isPublic = true ∧ m ∈ e.members ∧
        (e.isClass = true → m.isPublic = true) := by
  unfold written
  rw [List.mem_flatMap]
  constructor
  · rintro ⟨d, emitted, mem⟩
    rcases mem_emitted.1 emitted with ⟨e, isEntry, isPublic, rfl⟩ | ⟨m', ofModule, isPublic, rfl⟩ |
      ⟨t, -, rfl⟩
    · rcases List.mem_cons.1 mem with isType | isMember
      · unfold TypeEntry.toDeclaration at isType
        split at isType <;> cases isType
      · exact Or.inr ⟨e, isEntry, isPublic, mem_shown_members.1 isMember⟩
    · rcases List.mem_cons.1 mem with same | inside
      · cases same
        exact Or.inl ⟨ofModule, isPublic⟩
      · cases inside
    · rcases List.mem_cons.1 mem with same | inside
      · cases t <;> cases same
      · cases t <;> cases inside
  · rintro (⟨ofModule, isPublic⟩ | ⟨e, isEntry, isPublic, shows⟩)
    · exact ⟨_, mem_emitted.2 (Or.inr (Or.inl ⟨m, ofModule, isPublic, rfl⟩)), List.mem_cons_self⟩
    · exact ⟨_, mem_emitted.2 (Or.inl ⟨e, isEntry, isPublic, rfl⟩),
        List.mem_cons_of_mem _ (mem_shown_members.2 shows)⟩

/-! ## Members and their owners -/

/-- The members of an entry name it as their parent and know of what kind it is, wherever they come
from. -/
theorem owner_of_mem_members {e : TypeEntry} (found : (build c ds).1.resolve? name = some e)
    {m : Member} (mem : m ∈ e.members) :
    parentName m.doclet = name ∧ m.owner = e.ownerOfMembers := by
  obtain ⟨stands, -⟩ := standsFor_of_resolve? found
  rw [stands.members, List.mem_append] at mem
  rcases mem with own | attached
  · unfold TypeEntry.ownMembers at own
    split at own
    · rename_i isTypedef
      obtain ⟨p, -, makes⟩ := List.mem_filterMap.1 own
      have noClass : e.isClass = false := by simp [TypeEntry.isClass, isTypedef]
      rw [← stands.longname, TypeEntry.ownerOfMembers, noClass]
      unfold Member.ofProperty? at makes
      split at makes
      · cases makes
      · split at makes
        · cases makes
        · cases makes
          exact ⟨rfl, rfl⟩
    · cases own
  · exact stands.attached m attached

theorem owner_of_mem_moduleMembers {m : Member} (mem : m ∈ (build c ds).1.moduleMembers) :
    m.owner = .moduleLevel := by
  rw [moduleMembers_build, List.mem_map] at mem
  obtain ⟨d, -, rfl⟩ := mem
  rfl

end Catalogue

/-- Closing the public surface only publishes. -/
theorem onlyPublishes_closedCatalogue (c : Config) (ds : List Doclet) :
    (Catalogue.build c ds).1.OnlyPublishes (closedCatalogue c ds) :=
  (Surface.run_invariant c (Catalogue.keyed_build c ds)).onlyPublishes

theorem keyed_closedCatalogue (c : Config) (ds : List Doclet) :
    (closedCatalogue c ds).KeyedByLongname :=
  (onlyPublishes_closedCatalogue c ds).keyedByLongname (Catalogue.keyed_build c ds)

/-- The members of a closed catalogue name their owner as their parent, too. -/
theorem owner_of_mem_members_closed {c : Config} {ds : List Doclet} {name : String} {e : TypeEntry}
    (found : (closedCatalogue c ds).resolve? name = some e) {m : Member} (mem : m ∈ e.members) :
    Catalogue.parentName m.doclet = name ∧ m.owner = e.ownerOfMembers := by
  obtain ⟨before, was, raised⟩ := (onlyPublishes_closedCatalogue c ds).raised_back found
  have owner : e.ownerOfMembers = before.ownerOfMembers := by
    unfold TypeEntry.ownerOfMembers TypeEntry.isClass
    rw [raised.doclet]
  rw [owner]
  exact Catalogue.owner_of_mem_members was (raised.members ▸ mem)

/-! ## What a run writes -/

/-- A member that a record makes is written exactly if its owner, if it has one, is public in the
end, and it is public by itself or its owner is an interface. -/
theorem member_mem_written_closed_iff {c : Config} {ds : List Doclet} {m : Member}
    (made : m ∈ (closedCatalogue c ds).recordMembers) :
    Declaration.member m ∈ (closedCatalogue c ds).written ↔
      (m.owner = .moduleLevel ∨
        Catalogue.parentName m.doclet ∈ Surface.publicNames (closedCatalogue c ds)) ∧
      (m.owner = .interfaceBody ∨ m.doclet.isPublicByItself c.publicAnnotation = true) := by
  have published := onlyPublishes_closedCatalogue c ds
  have keyed := keyed_closedCatalogue c ds
  have flag : m.isPublic = m.doclet.isPublicByItself c.publicAnnotation := by
    rw [published.recordMembers] at made
    rw [(Catalogue.mem_recordMembers made).2]
    rfl
  rw [Catalogue.member_mem_written_iff, flag]
  constructor
  · rintro (⟨ofModule, isPublic⟩ | ⟨e, isEntry, isPublic, mem, shows⟩)
    · rw [published.moduleMembers] at ofModule
      exact ⟨Or.inl (Catalogue.owner_of_mem_moduleMembers ofModule), Or.inr isPublic⟩
    · obtain ⟨name, found⟩ := OrderedMap.mem_values_iff.1 isEntry
      obtain ⟨parent, owner⟩ := owner_of_mem_members_closed found mem
      refine ⟨Or.inr ((Surface.mem_publicNames keyed).2 ⟨e, parent ▸ found, isPublic⟩), ?_⟩
      by_cases isClass : e.isClass = true
      · exact Or.inr (shows isClass)
      · exact Or.inl (owner.trans (if_neg isClass))
  · rintro ⟨ownerShows, memberShows⟩
    rcases List.mem_append.1 made with ofType | ofModule
    · obtain ⟨e, isEntry, attached⟩ := List.mem_flatMap.1 ofType
      obtain ⟨name, found⟩ := OrderedMap.mem_values_iff.1 isEntry
      have mem : m ∈ e.members := List.mem_of_mem_drop attached
      obtain ⟨parent, owner⟩ := owner_of_mem_members_closed found mem
      refine Or.inr ⟨e, isEntry, ?_, mem, fun isClass => ?_⟩
      · have owned : m.owner ≠ .moduleLevel := by
          rw [owner, TypeEntry.ownerOfMembers]
          split <;> simp
        obtain ⟨e', found', isPublic⟩ :=
          (Surface.mem_publicNames keyed).1 (ownerShows.resolve_left owned)
        rw [parent] at found'
        cases found.symm.trans found'
        exact isPublic
      · have inClass : m.owner ≠ .interfaceBody := by
          rw [owner, TypeEntry.ownerOfMembers, if_pos isClass]
          simp
        exact memberShows.resolve_left inClass
    · have ofBuilt := ofModule
      rw [published.moduleMembers] at ofBuilt
      have inModule : m.owner ≠ .interfaceBody := by
        rw [Catalogue.owner_of_mem_moduleMembers ofBuilt]
        simp
      exact Or.inl ⟨ofModule, memberShows.resolve_left inModule⟩

/-- **A run asks a member whether it is public, unless it stands in an interface.** What a run writes
are the declarations of its closed catalogue and of types the members that are shown: each of them
is a piece of the page, and the page is that of what is shown. Of the members that records make
exactly those are written whose owner, if there is one, is public in the end, and that are public by
themselves or stand in an interface. -/
theorem written_generate (c : Config) (ds : List Doclet) (earlier : List Finding) :
    let k := closedCatalogue c ds
    let page := (Outline.ofDeclarations (k.emitted.map Declaration.shown)).render c 0
    (generate c ds earlier).declarations = (Page.run {} (page.steps c)).text ∧
    (∀ d ∈ k.written, ∃ level, (d.render c level).Within page) ∧
    ∀ m ∈ k.recordMembers, Declaration.member m ∈ k.written ↔
      (m.owner = .moduleLevel ∨ Catalogue.parentName m.doclet ∈ Surface.publicNames k) ∧
      (m.owner = .interfaceBody ∨ m.doclet.isPublicByItself c.publicAnnotation = true) := by
  intro k page
  have same : page = (Outline.ofDeclarations k.emitted).render c 0 :=
    Outline.render_shown c k.emitted 0
  refine ⟨?_, ?_, fun m made => member_mem_written_closed_iff made⟩
  · rw [declarations_generate, same]
  · intro d mem
    obtain ⟨top, emitted, inside⟩ := List.mem_flatMap.1 mem
    have placed := (Outline.contents_ofDeclarations k.emitted).mem_iff.2 emitted
    obtain ⟨level, within⟩ := Outline.within_render (c := c) 0 _ placed
    rw [← same] at within
    rcases List.mem_cons.1 inside with rfl | isMember
    · exact ⟨level, within⟩
    · exact ⟨level + 1, (Declaration.within_render isMember level).trans within⟩

/-- A private member of a typedef is written. -/
theorem generate_private_interface_member :
    let options : Doclet := { name := "Options", longname := "Options", kind := .typedef }
    let secret : Doclet :=
      { name := "secret", longname := "Options#secret", memberof := some "Options",
        access := some .privateAccess, type := some ⟨["number"]⟩ }
    secret.isPublicByItself none = false ∧
      (generate {} [options, secret] []).declarations =
        "interface Options {
    secret: number;
}
" := by
  decide +kernel

end Ambient
