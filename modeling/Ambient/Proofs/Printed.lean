import Ambient.Proofs.Rendering
import Ambient.Proofs.Visit
/-!
# What is visited is what is printed

A visit and a rendering go through a declaration each on its own. They meet the same type
expressions in the same order, so the names that a visit collects are the names in what is printed.

A configured replacement takes the place of a whole member and prints no type expression, and what
the configuration adds is printed as it is. Both are left out here.

## Main definitions

* `Declaration.parts`: a declaration with everything that is nested in it.
* `Declaration.printed`: the type expressions in the rendering of a declaration, each with the
  placeholders of the declarations around it.

## Main statements

* `Declaration.visit_printed`: a visit passes what is printed.
* `Declaration.visit_agrees`: the expressions, the names in them, and the reported untyped arrays.
-/

namespace Ambient

namespace Declaration

/-! ## Parts -/

mutual

/-- The declaration and everything that is nested in it. -/
def parts : Declaration → List Declaration
  | .classType d isPublic members => .classType d isPublic members :: partsAll members
  | .typedef d isPublic members => .typedef d isPublic members :: partsAll members
  | .member m => [.member m]
  | .ctor k => [.ctor k]
  | .addedInterface i => [.addedInterface i]
  | .addedAlias a => [.addedAlias a]

/-- Some declarations and everything that is nested in them. -/
def partsAll : List Declaration → List Declaration
  | [] => []
  | d :: rest => parts d ++ partsAll rest

end

/-- Whether the declaration comes from a record and not from the configuration. -/
def isRecorded : Declaration → Bool
  | .classType .. | .typedef .. | .member _ | .ctor _ => true
  | .addedInterface _ | .addedAlias _ => false

/-- Everything among some declarations comes from records, and the configuration replaces no
member. -/
structure Plain (c : Config) (parts : List Declaration) : Prop where
  recorded : ∀ part ∈ parts, part.isRecorded = true
  own : ∀ m, .member m ∈ parts → c.memberReplacements.get? m.doclet.longname = none

namespace Plain

variable {c : Config} {first second : List Declaration}

theorem left (h : Plain c (first ++ second)) : Plain c first where
  recorded part mem := h.recorded part (List.mem_append_left second mem)
  own m mem := h.own m (List.mem_append_left second mem)

theorem right (h : Plain c (first ++ second)) : Plain c second where
  recorded part mem := h.recorded part (List.mem_append_right first mem)
  own m mem := h.own m (List.mem_append_right first mem)

theorem tail {d : Declaration} (h : Plain c ([d] ++ second)) : Plain c second :=
  h.right

end Plain

/-! ## The expressions in a rendering -/

/-- Type expressions with no placeholders around them. -/
def unbound (raws : List String) : List Mention :=
  raws.map fun raw => { raw, bound := [] }

mutual

/-- The type expressions in the rendering of a declaration, in order, each with the placeholders of
the methods, constructors, classes and typedefs around it. -/
def printed (c : Config) (level : Nat) : Declaration → List Mention
  | .classType d _ members =>
    (unbound (Rendering.line (d.classHeader c level)).raws ++
      ((constructor? d).map fun k =>
        (unbound (k.render c).raws).map (Mention.within k.generics)).getD [] ++
      printedPublic c (level + 1) members).map (Mention.within d.placeholders)
  | .typedef d _ [] => (unbound (d.renderTypedef c).raws).map (Mention.within d.placeholders)
  | .typedef d _ (first :: rest) =>
    (printed c (level + 1) first ++ printedAll c (level + 1) rest).map
      (Mention.within d.placeholders)
  | .member m =>
    match m.form with
    | .property => unbound (m.render c level).raws
    | .method => (unbound (m.render c level).raws).map (Mention.within m.doclet.placeholders)
  | .ctor k => (unbound (k.render c).raws).map (Mention.within k.generics)
  | .addedInterface i => unbound i.render.raws
  | .addedAlias a => unbound a.render.raws

/-- The type expressions in the renderings of the public ones of some declarations. -/
def printedPublic (c : Config) (level : Nat) : List Declaration → List Mention
  | [] => []
  | d :: rest =>
    if d.isPublic then printed c level d ++ printedPublic c level rest
    else printedPublic c level rest

/-- The type expressions in the renderings of some declarations. -/
def printedAll (c : Config) (level : Nat) : List Declaration → List Mention
  | [] => []
  | d :: rest => printed c level d ++ printedAll c level rest

end

@[simp] theorem map_raw_unbound (raws : List String) :
    (unbound raws).map Mention.raw = raws := by
  unfold unbound
  rw [List.map_map]
  exact List.map_id raws

@[simp] theorem map_raw_within (placeholders : List String) (mentions : List Mention) :
    (mentions.map (Mention.within placeholders)).map Mention.raw = mentions.map Mention.raw := by
  rw [List.map_map]
  rfl

mutual

/-- Placeholders aside, these are the type expressions of the rendering. -/
theorem printed_raws (c : Config) :
    ∀ (level : Nat) (d : Declaration),
      (d.printed c level).map Mention.raw = (d.render c level).raws
  | level, .classType d _ members => by
    have inner := printedPublic_raws c (level + 1) members
    unfold printed render Doclet.classDocs
    cases constructor? d <;> simp [-List.map_map, inner]
  | level, .typedef d _ [] => by simp [-List.map_map, printed, render]
  | level, .typedef d _ (first :: rest) => by
    have head := printed_raws c (level + 1) first
    have inner := printedAll_raws c (level + 1) rest
    simp [-List.map_map, printed, render, head, inner, Piece.raws]
  | level, .member m => by
    unfold printed render
    cases m.form <;> simp [-List.map_map]
  | level, .ctor k => by simp [-List.map_map, printed, render]
  | level, .addedInterface i => by simp [-List.map_map, printed, render]
  | level, .addedAlias a => by simp [-List.map_map, printed, render]

theorem printedPublic_raws (c : Config) :
    ∀ (level : Nat) (ds : List Declaration),
      (printedPublic c level ds).map Mention.raw = (renderPublic c level ds).raws
  | _, [] => rfl
  | level, d :: rest => by
    have head := printed_raws c level d
    have inner := printedPublic_raws c level rest
    unfold printedPublic renderPublic
    by_cases shown : d.isPublic = true <;> simp [shown, head, inner]

theorem printedAll_raws (c : Config) :
    ∀ (level : Nat) (ds : List Declaration),
      (printedAll c level ds).map Mention.raw = (renderAll c level ds).raws
  | _, [] => rfl
  | level, d :: rest => by
    have head := printed_raws c level d
    have inner := printedAll_raws c level rest
    unfold printedAll renderAll
    simp [head, inner]

end

/-! ## The expressions in a visit -/

theorem recordAll_mentions (raws : List String) (s : List Mention) :
    Mention.recorder.recordAll raws s = s ++ unbound raws := by
  induction raws generalizing s with
  | nil => exact (List.append_nil s).symm
  | cons raw rest ih =>
    show Mention.recorder.recordAll rest (s ++ [{ raw, bound := [] }]) = _
    rw [ih, List.append_assoc]
    rfl

theorem recordWithin_mentions (placeholders raws : List String) (s : List Mention) :
    Mention.recorder.recordWithin placeholders raws s =
      s ++ (unbound raws).map (Mention.within placeholders) := by
  show s ++ (Mention.recorder.recordAll raws []).map _ = _
  rw [recordAll_mentions, List.nil_append]

theorem visitConstructor_printed (c : Config) (d : Doclet) (s : List Mention) :
    visitConstructor Mention.recorder d s =
      s ++ ((constructor? d).map fun k =>
        (unbound (k.render c).raws).map (Mention.within k.generics)).getD [] := by
  unfold visitConstructor
  cases constructor? d with
  | none => exact (List.append_nil s).symm
  | some k =>
    show k.visit Mention.recorder s = s ++ (unbound (k.render c).raws).map _
    rw [Constructor.raws_render]
    exact recordWithin_mentions k.generics _ s

theorem visitMember_printed {c : Config} {m : Member}
    (own : c.memberReplacements.get? m.doclet.longname = none) (level : Nat) (s : List Mention) :
    m.visit Mention.recorder s = s ++ (Declaration.member m).printed c level := by
  have types : (m.render c level).raws = m.types := by
    unfold Member.render
    rw [own]
    exact m.raws_renderOwn c level
  unfold Member.visit printed
  rw [types]
  unfold Member.types
  cases m.form with
  | property => exact recordAll_mentions _ s
  | method => exact recordWithin_mentions _ _ s

mutual

/-- **A visit passes what is printed.** It meets the type expressions of the rendering, in order,
inside the same placeholders. -/
theorem visit_printed (c : Config) :
    ∀ (level : Nat) (d : Declaration), Plain c d.parts → ∀ s : List Mention,
      d.visit Mention.recorder s = s ++ d.printed c level
  | level, .classType d isPublic members, plain, s => by
    have inner := visitPublic_printed c (level + 1) members plain.tail
    unfold visit printed
    rw [recordAll_mentions, visitConstructor_printed c, inner, Rendering.raws_line,
      Doclet.raws_classHeader]
    rfl
  | level, .typedef d isPublic [], plain, s => by
    unfold visit printed
    rw [recordWithin_mentions, Doclet.raws_renderTypedef]
  | level, .typedef d isPublic (first :: rest), plain, s => by
    -- With members it is an interface, and only they have type expressions.
    have members : Plain c (first.parts ++ partsAll rest) := plain.tail
    have head := visit_printed c (level + 1) first members.left
    have inner := visitAll_printed c (level + 1) rest members.right
    unfold visit printed
    rw [head, inner]
    rfl
  | level, .member m, plain, s => visitMember_printed (plain.own m List.mem_cons_self) level s
  | level, .ctor k, plain, s => by
    unfold visit printed
    rw [Constructor.raws_render]
    exact recordWithin_mentions k.generics _ s
  | level, .addedInterface i, plain, s => by
    have recorded := plain.recorded (.addedInterface i) List.mem_cons_self
    cases recorded
  | level, .addedAlias a, plain, s => by
    have recorded := plain.recorded (.addedAlias a) List.mem_cons_self
    cases recorded

theorem visitPublic_printed (c : Config) :
    ∀ (level : Nat) (ds : List Declaration), Plain c (partsAll ds) → ∀ s : List Mention,
      visitPublic Mention.recorder ds s = s ++ printedPublic c level ds
  | _, [], _, s => (List.append_nil s).symm
  | level, d :: rest, plain, s => by
    have head := visit_printed c level d plain.left
    have inner := visitPublic_printed c level rest plain.right
    unfold visitPublic printedPublic
    by_cases shown : d.isPublic = true
    · rw [if_pos shown, if_pos shown, inner, head, List.append_assoc]
    · rw [if_neg shown, if_neg shown, inner]

theorem visitAll_printed (c : Config) :
    ∀ (level : Nat) (ds : List Declaration), Plain c (partsAll ds) → ∀ s : List Mention,
      visitAll Mention.recorder ds s = s ++ printedAll c level ds
  | _, [], _, s => (List.append_nil s).symm
  | level, d :: rest, plain, s => by
    have head := visit_printed c level d plain.left
    have inner := visitAll_printed c level rest plain.right
    unfold visitAll printedAll
    rw [inner, head, List.append_assoc]

end

/-! ## The notes of a declaration -/

mutual

/-- Only type expressions make a declaration report untyped arrays. -/
theorem quiet_render (c : Config) :
    ∀ (level : Nat) (d : Declaration), (d.render c level).Quiet
  | level, .classType d isPublic members => by
    have header : Line.Quiet (d.classHeader c level) := by
      apply Line.Quiet.text_cons
      unfold Doclet.heritage
      match d.augments with
      | [] => exact Line.Quiet.nil
      | [parent] => exact Line.Quiet.nil
      | parent :: next :: rest =>
        refine Line.Quiet.append Line.Quiet.nil (Line.quiet_joinWith ", " ?_)
        intro line mem
        obtain ⟨other, -, rfl⟩ := List.mem_map.1 mem
        exact Line.Quiet.nil
    have surplus : d.surplusParents.Quiet := by
      unfold Doclet.surplusParents
      split
      · exact Rendering.quiet_finding rfl
      · exact Rendering.Quiet.empty
    have constructor : (((constructor? d).map (Constructor.render c)).getD {}).Quiet := by
      cases constructor? d with
      | none => exact Rendering.Quiet.empty
      | some k => exact k.quiet_render c
    have inner := quiet_renderPublic c (level + 1) members
    unfold render
    exact (Rendering.quiet_docs c _ _ _ _).append
      (.block header ((surplus.append constructor).append inner))
  | level, .typedef d isPublic [] => by
    unfold render
    exact d.quiet_renderTypedef c
  | level, .typedef d isPublic (first :: rest) => by
    have inner := (quiet_render c (level + 1) first).append (quiet_renderAll c (level + 1) rest)
    unfold render
    exact (Rendering.quiet_docs c _ _ _ _).append (.block Line.Quiet.nil inner)
  | level, .member m => m.quiet_render c level
  | level, .ctor k => k.quiet_render c
  | level, .addedInterface i => .block Line.Quiet.nil (Rendering.quiet_ofSteps _)
  | level, .addedAlias a => Rendering.quiet_line Line.Quiet.nil

theorem quiet_renderPublic (c : Config) :
    ∀ (level : Nat) (ds : List Declaration), (renderPublic c level ds).Quiet
  | _, [] => Rendering.Quiet.empty
  | level, d :: rest => by
    unfold renderPublic
    split
    · exact (quiet_render c level d).append (quiet_renderPublic c level rest)
    · exact quiet_renderPublic c level rest

theorem quiet_renderAll (c : Config) :
    ∀ (level : Nat) (ds : List Declaration), (renderAll c level ds).Quiet
  | _, [] => Rendering.Quiet.empty
  | level, d :: rest => (quiet_render c level d).append (quiet_renderAll c level rest)

end

/-- **Visit and rendering see the same types.** For a declaration from records without replaced
members: the type expressions of a visit are those of the rendering, the collected names are the
references in them in the order of their first occurrence, each free of the placeholders around it,
and the reported untyped arrays are the untyped arrays in them. -/
theorem visit_agrees (c : Config) (level : Nat) (d : Declaration)
    (recorded : ∀ part ∈ d.parts, part.isRecorded = true)
    (own : ∀ m, .member m ∈ d.parts → c.memberReplacements.get? m.doclet.longname = none) :
    d.visit Recorder.raws [] = (d.render c level).raws ∧
    (d.printed c level).map Mention.raw = (d.render c level).raws ∧
    d.recorded c =
      ((d.printed c level).flatMap fun printed =>
        (References.accepted (TypeExpr.Event.references (c.typeText printed.raw).events)).filter
          fun name => !printed.bound.contains name).eraseDups ∧
    ((d.render c level).findings c).countP Finding.isUntypedArray =
      ((d.render c level).raws.flatMap c.untypedArrays).length := by
  have printed : d.mentions = d.printed c level := visit_printed c level d ⟨recorded, own⟩ []
  refine ⟨?_, printed_raws c level d, ?_, ?_⟩
  · rw [visit_raws, printed, printed_raws]
  · unfold Declaration.recorded
    rw [collect_eq_insertAll, References.names_insertAll_empty, references, printed]
    rfl
  · have silent : (d.render c level).notes.countP Finding.isUntypedArray = 0 := by
      rw [List.countP_eq_zero]
      intro f mem
      simp [quiet_render c level d f mem]
    rw [Rendering.countP_findings, silent, Nat.zero_add]

/-- A generic class with a method and a property. -/
def collection : Declaration :=
  .classType
    { name := "Collection", longname := "ol.Collection", kind := .classType,
      augments := ["ol.Object"], tags := [.ofTitle "template" "T"],
      params := [{ name := some "array", type := some ⟨["Array.<T>"]⟩ }] }
    true
    [.member
      { form := .method, owner := .classBody, isPublic := true
        doclet :=
          { name := "item", longname := "ol.Collection#item", kind := .function,
            params := [{ name := some "index", type := some ⟨["number"]⟩ }],
            returns := [{ type := some ⟨["T", "undefined"]⟩ }] } },
    .member
      { form := .property, owner := .classBody, isPublic := true
        doclet :=
          { name := "length", longname := "ol.Collection#length",
            type := some ⟨["number"]⟩ } }]

/-- A configuration that replaces a member of another class. -/
def replacingClear : Config :=
  ({} : Config).addMemberReplacement "ol.Source#clear" { declaration := "clear(): void;" }

theorem visit_agrees_collection :
    (∀ part ∈ collection.parts, part.isRecorded = true) ∧
    (∀ m, .member m ∈ collection.parts →
      replacingClear.memberReplacements.get? m.doclet.longname = none) ∧
    (collection.render replacingClear 0).raws =
      ["ol.Object", "Array.<T>", "number", "T", "number"] := by
  have recorded : ∀ part ∈ collection.parts, part.isRecorded = true := by
    intro part mem
    simp only [collection, parts, partsAll, List.mem_cons, List.append_nil, List.mem_append,
      List.not_mem_nil, or_false] at mem
    rcases mem with rfl | rfl | rfl <;> rfl
  have own : ∀ m, .member m ∈ collection.parts →
      replacingClear.memberReplacements.get? m.doclet.longname = none := by
    intro m mem
    simp only [collection, parts, partsAll, List.mem_cons, List.append_nil, List.mem_append,
      List.not_mem_nil, or_false, reduceCtorEq, false_or, Declaration.member.injEq] at mem
    rcases mem with rfl | rfl <;> decide
  refine ⟨recorded, own, ?_⟩
  rw [← (visit_agrees replacingClear 0 collection recorded own).1]
  decide

end Declaration

end Ambient
