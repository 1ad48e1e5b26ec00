import Ambient.Declaration.Rendering
import Ambient.Proofs.Text
/-!
# Laws of renderings

The type expressions of a rendering are read off its parts. What there is to report about a rendering
comes from these expressions, apart from notes that stand in it as they are.

## Main definitions

* `Rendering.notes`: the findings of a rendering that come from no type expression.
* `Config.untypedArrays`: the untyped arrays in one expression.
* `Config.printedType`: the printed type of something with some alternatives.

## Main statements

* `raws_paramsLine`, `raws_returnLine`: the type expressions of a signature.
* `Slot.print_line_of_isRest`, `Slot.print_line_of_plain`: the entries of a parameter list as they
  are printed.
* `Member.raws_renderOwn`, `Constructor.raws_render`, `Doclet.raws_renderTypedef`: the type
  expressions of declarations without members.
* `Rendering.countP_findings`: how many untyped arrays are reported.
-/

namespace Ambient

/-! ## Lines -/

namespace Line

/-- The type expressions of a line. -/
def raws (line : Line) : List String :=
  line.flatMap Piece.raws

@[simp] theorem raws_nil : raws [] = [] := rfl

@[simp] theorem raws_cons (piece : Piece) (rest : Line) :
    raws (piece :: rest) = piece.raws ++ raws rest := rfl

@[simp] theorem raws_append (first second : Line) :
    raws (first ++ second) = raws first ++ raws second :=
  List.flatMap_append

/-- What is read off the parts of lines that are put together is read off one line after another, as
long as nothing is read off plain text. -/
theorem flatMap_joinWith {α : Type} {view : Piece → List α} (text : ∀ t, view (.text t) = [])
    (separator : String) (lines : List Line) :
    (joinWith separator lines).flatMap view = lines.flatMap fun line => line.flatMap view := by
  induction lines with
  | nil => rfl
  | cons line rest ih =>
    cases rest with
    | nil => simp [joinWith]
    | cons next rest =>
      unfold joinWith
      rw [List.flatMap_append, List.flatMap_cons, ih, text]
      rfl

theorem print_joinWith (c : Config) (separator : String) (lines : List Line) :
    print c (joinWith separator lines) = Text.joinWith separator (lines.map (print c)) := by
  induction lines with
  | nil => rfl
  | cons line rest ih =>
    cases rest with
    | nil => rfl
    | cons next rest =>
      have behind := List.cons_ne_nil (print c next) (rest.map (print c))
      rw [List.map_cons, List.map_cons, Text.joinWith_cons _ _ behind, joinWith, print_append,
        print, Piece.print, ih, List.map_cons, String.append_assoc]

theorem raws_joinWith (separator : String) (lines : List Line) :
    raws (joinWith separator lines) = lines.flatMap raws :=
  flatMap_joinWith (fun _ => rfl) separator lines

end Line

namespace Rendering

@[simp] theorem raws_empty : ({} : Rendering).raws = [] := rfl

@[simp] theorem raws_line (pieces : Line) : (line pieces).raws = Line.raws pieces :=
  List.append_nil _

@[simp] theorem raws_finding (found : Finding) : (finding found).raws = [] := rfl

@[simp] theorem raws_ofSteps (steps : List Page.Step) : (ofSteps steps).raws = [] := by
  induction steps with
  | nil => rfl
  | cons step rest ih =>
    show (Entry.ofStep step).raws ++ (ofSteps rest).raws = []
    rw [ih]
    cases step <;> rfl

@[simp] theorem raws_block (header : Line) (body : Rendering) :
    (block header body).raws = Line.raws header ++ body.raws := by
  simp [block, raws, Entry.raws, Line.raws, Piece.raws]

end Rendering

@[simp] theorem raws_docs (c : Config) (d : Doclet) (description : Option String) (label : String)
    (tags : List String) : (docs c d description label tags).raws = [] := by
  unfold docs
  split <;> simp

/-! ## Signatures -/

theorem raws_typeOrAny (subject : String) (names : List String) (warning : String) :
    Line.raws (typeOrAny subject names warning) = Config.printedNames names := by
  unfold typeOrAny
  cases Config.printedNames names <;> simp [Piece.raws]

theorem Slot.raws_line (subject : String) (slot : Slot) :
    Line.raws (slot.line subject) = Config.printedNames slot.names := by
  unfold Slot.line Slot.elementLine
  by_cases rest : slot.isRest = true
  · cases Config.printedNames slot.names <;> simp [rest, Piece.raws]
  · simp [rest, Piece.raws, raws_typeOrAny]

/-- The printed type of something with some alternatives: their union, `any` if there are none. -/
def Config.printedType (c : Config) (names : List String) : String :=
  ((c.unionText? names).map TypeText.text).getD "any"

theorem print_typeOrAny (c : Config) (subject : String) (names : List String) (warning : String) :
    Line.print c (typeOrAny subject names warning) = c.printedType names := by
  unfold typeOrAny Config.printedType Config.unionText?
  cases Config.printedNames names <;> simp [Line.print, Piece.print]

namespace Slot

variable {slot : Slot}

theorem print_elementLine (c : Config) (subject : String) (slot : Slot) :
    Line.print c (slot.elementLine subject) = Piece.parenthesized (c.printedType slot.names) := by
  have any : Piece.parenthesized "any" = "any" := rfl
  unfold Slot.elementLine Config.printedType Config.unionText?
  cases Config.printedNames slot.names <;> simp [Line.print, Piece.print, any]

/-- A rest parameter is printed as an array. -/
theorem print_line_of_isRest (isRest : slot.isRest = true) (c : Config) (subject : String) :
    Line.print c (slot.line subject) =
      "..." ++ slot.name ++ ": " ++ Piece.parenthesized (c.printedType slot.names) ++ "[]" := by
  have close : Line.print c [.text "[]"] = "[]" := String.append_empty
  rw [Slot.line, isRest, if_pos rfl, Line.print_append, Line.print, Piece.print,
    print_elementLine, close]

/-- Any other parameter is printed with its type, and with a question mark if it is optional. -/
theorem print_line_of_plain (plain : slot.isRest = false) (c : Config) (subject : String) :
    Line.print c (slot.line subject) =
      slot.name ++ (if slot.isOptional then "?" else "") ++ ": " ++ c.printedType slot.names := by
  rw [Slot.line, plain, if_neg Bool.false_ne_true, Line.print, Piece.print, print_typeOrAny]

end Slot

/-- Which entries come before a parameter makes no difference to its type. -/
theorem names_slotsFrom (index : Nat) (afterOptional : Bool) (params : List Param) :
    (slotsFrom index afterOptional params).map Slot.names = params.map Param.alternatives := by
  induction params generalizing index afterOptional with
  | nil => rfl
  | cons p rest ih =>
    unfold slotsFrom
    by_cases isRest : p.isRest = true
    · simp [isRest, ih]
    · simp [isRest, ih]

/-- The type expressions of a parameter list are those of its parameters. -/
theorem raws_paramsLine (subject : String) (params : List Param) :
    Line.raws (paramsLine subject params) =
      (plainParams params).flatMap fun p => Config.printedNames p.alternatives := by
  have printed : (fun slot : Slot => Line.raws (slot.line subject)) =
      fun slot => Config.printedNames slot.names := by
    funext slot
    exact slot.raws_line subject
  calc Line.raws (paramsLine subject params)
      = (slots params).flatMap fun slot => Config.printedNames slot.names := by
        rw [paramsLine, Line.raws_joinWith, List.flatMap_map, printed]
    _ = ((slots params).map Slot.names).flatMap Config.printedNames := by rw [List.flatMap_map]
    _ = _ := by rw [slots, names_slotsFrom, List.flatMap_map]

/-- The type expressions of a return type are those of the return values, one after another. -/
theorem raws_returnLine (c : Config) (subject : String) (returns : List Param) :
    Line.raws (returnLine c subject returns) =
      returns.flatMap fun r => Config.printedNames r.alternatives := by
  have flattened : Config.printedNames (returns.flatMap Param.alternatives) =
      returns.flatMap fun r => Config.printedNames r.alternatives := by
    unfold Config.printedNames
    rw [List.filter_flatMap]
  rw [← flattened]
  unfold returnLine
  cases Config.printedNames (returns.flatMap Param.alternatives) <;> simp [Piece.raws]

/-! ## Declarations without members -/

/-- The type expressions of a member: of its own type, or of its signature. -/
def Member.types (m : Member) : List String :=
  match m.form with
  | .property => Config.printedNames m.doclet.alternatives
  | .method => signatureTypes m.doclet.params m.doclet.returns

theorem Member.raws_renderOwn (c : Config) (level : Nat) (m : Member) :
    (m.renderOwn c level).raws = m.types := by
  unfold renderOwn Member.types
  cases m.form with
  | property => simp [propertyLine, raws_typeOrAny, Piece.raws]
  | method => simp [methodLine, raws_paramsLine, raws_returnLine, signatureTypes, Piece.raws]

theorem Constructor.raws_render (c : Config) (k : Constructor) :
    (k.render c).raws = signatureTypes k.doclet.params [] := by
  simp [render, raws_paramsLine, signatureTypes, Piece.raws]

namespace Doclet

theorem raws_renderTypedef (c : Config) (d : Doclet) :
    (d.renderTypedef c).raws = d.typedefTypes := by
  unfold renderTypedef typedefTypes
  by_cases signature : d.hasSignature = true
  · simp [signature, renderFunction, raws_paramsLine, raws_returnLine, signatureTypes, Piece.raws]
  · unfold aliasLines
    cases Config.printedNames d.alternatives <;> simp [signature, Piece.raws]

/-- The type expressions in the header of a class are the types that it augments. -/
theorem raws_classHeader (c : Config) (level : Nat) (d : Doclet) :
    Line.raws (d.classHeader c level) = d.augments := by
  have parents : Line.raws d.heritage = d.augments := by
    unfold heritage
    match d.augments with
    | [] => rfl
    | [parent] => rfl
    | parent :: next :: rest => simp [Piece.raws, Line.raws_joinWith, List.flatMap_map]
  rw [classHeader, Line.raws_cons, parents]
  rfl

@[simp] theorem raws_surplusParents (d : Doclet) : d.surplusParents.raws = [] := by
  unfold surplusParents
  split <;> rfl

end Doclet

/-! ## What is reported -/

/-- Whether a finding is about an untyped array. -/
def Finding.isUntypedArray (f : Finding) : Bool :=
  f.code = some .untypedArray

/-- The spellings of the untyped arrays in one type expression. -/
def Config.untypedArrays (c : Config) (raw : String) : List String :=
  TypeExpr.Event.untypedArrays (c.typeText raw).events

/-- The findings of a part that come from no type expression. -/
def Piece.notes : Piece → List Finding
  | .untyped warning => [warning]
  | .text _ | .types _ _ | .element _ _ => []

/-- The findings of a line that come from no type expression. -/
def Line.notes (line : Line) : List Finding :=
  line.flatMap Piece.notes

namespace Rendering

/-- The findings of an entry that come from no type expression. -/
def Entry.notes : Entry → List Finding
  | .indent | .unindent => []
  | .line pieces => Line.notes pieces
  | .finding found => [found]

/-- The findings of a rendering that come from no type expression. -/
def notes (r : Rendering) : List Finding :=
  r.entries.flatMap Entry.notes

end Rendering

namespace Rendering

/-- Each untyped array in a union is reported. -/
theorem countP_unionText (c : Config) (subject : String) (raws : List String) :
    (TypeText.findings subject (c.unionText raws).events).countP Finding.isUntypedArray =
      (raws.flatMap c.untypedArrays).length := by
  have all : ∀ events, (TypeText.findings subject events).countP Finding.isUntypedArray =
      (TypeExpr.Event.untypedArrays events).length := by
    intro events
    rw [TypeText.findings, List.countP_map]
    exact List.countP_eq_length.2 fun _ _ => rfl
  rw [all]
  induction raws with
  | nil => rfl
  | cons raw rest ih =>
    rw [List.flatMap_cons, List.length_append, ← ih]
    simp [Config.unionText, Config.untypedArrays, TypeExpr.Event.untypedArrays]

theorem countP_findings_piece (c : Config) (piece : Piece) :
    (piece.findings c).countP Finding.isUntypedArray =
      piece.notes.countP Finding.isUntypedArray +
        (piece.raws.flatMap c.untypedArrays).length := by
  cases piece with
  | text written => rfl
  | types subject raws =>
    simpa [Piece.findings, Piece.notes, Piece.raws] using countP_unionText c subject raws
  | element subject raws =>
    simpa [Piece.findings, Piece.notes, Piece.raws] using countP_unionText c subject raws
  | untyped warning => rfl

theorem countP_findings_line (c : Config) (pieces : Line) :
    (pieces.flatMap (Piece.findings c)).countP Finding.isUntypedArray =
      (Line.notes pieces).countP Finding.isUntypedArray +
        ((Line.raws pieces).flatMap c.untypedArrays).length := by
  induction pieces with
  | nil => rfl
  | cons piece rest ih =>
    show _ = (piece.notes ++ Line.notes rest).countP _ + _
    rw [List.flatMap_cons, List.countP_append, List.countP_append, ih, countP_findings_piece,
      Line.raws_cons, List.flatMap_append, List.length_append]
    omega

/-- The reported untyped arrays are those in the type expressions, and notes about some. -/
theorem countP_findings (c : Config) (r : Rendering) :
    (r.findings c).countP Finding.isUntypedArray =
      r.notes.countP Finding.isUntypedArray +
        (r.raws.flatMap c.untypedArrays).length := by
  obtain ⟨entries⟩ := r
  induction entries with
  | nil => rfl
  | cons entry rest ih =>
    have first : (entry.findings c).countP Finding.isUntypedArray =
        entry.notes.countP Finding.isUntypedArray +
          (entry.raws.flatMap c.untypedArrays).length := by
      cases entry with
      | indent => rfl
      | unindent => rfl
      | line pieces => exact countP_findings_line c pieces
      | finding found => rfl
    show (entry.findings c ++ findings c ⟨rest⟩).countP _ =
      (entry.notes ++ notes ⟨rest⟩).countP _ + ((entry.raws ++ raws ⟨rest⟩).flatMap _).length
    rw [List.countP_append, List.countP_append, List.flatMap_append, List.length_append, first, ih]
    omega

end Rendering

/-! ## Notes -/

/-- No note of a line is about an untyped array. -/
def Line.Quiet (line : Line) : Prop :=
  ∀ f ∈ Line.notes line, f.isUntypedArray = false

/-- No note of a rendering is about an untyped array. -/
def Rendering.Quiet (r : Rendering) : Prop :=
  ∀ f ∈ r.notes, f.isUntypedArray = false

namespace Line

theorem Quiet.nil : Quiet [] := fun _ mem => nomatch mem

theorem Quiet.append {first second : Line} (h : Quiet first) (h' : Quiet second) :
    Quiet (first ++ second) := by
  intro f mem
  rw [notes, List.flatMap_append, List.mem_append] at mem
  exact mem.elim (h f) (h' f)

theorem Quiet.text_cons {line : Line} (h : Quiet line) (written : String) :
    Quiet (.text written :: line) := h

theorem quiet_text (written : String) : Quiet [.text written] := Quiet.nil

theorem quiet_types (subject : String) (raws : List String) : Quiet [.types subject raws] :=
  Quiet.nil

theorem quiet_untyped (subject message : String) :
    Quiet [.untyped (untypedWarning subject message)] := by
  intro f mem
  rw [List.mem_singleton.1 mem]
  rfl

theorem quiet_joinWith (separator : String) {lines : List Line} (h : ∀ line ∈ lines, Quiet line) :
    Quiet (joinWith separator lines) := by
  intro f mem
  rw [notes, flatMap_joinWith (fun _ => rfl)] at mem
  obtain ⟨line, inside, mem⟩ := List.mem_flatMap.1 mem
  exact h line inside f mem

theorem quiet_typeOrAny (subject : String) (names : List String) (warning : String) :
    Quiet (typeOrAny subject names warning) := by
  unfold typeOrAny
  cases Config.printedNames names with
  | nil => exact quiet_untyped subject warning
  | cons raw raws => exact quiet_types subject (raw :: raws)

theorem quiet_paramsLine (subject : String) (params : List Param) :
    Quiet (paramsLine subject params) := by
  apply quiet_joinWith
  intro line mem
  obtain ⟨slot, -, rfl⟩ := List.mem_map.1 mem
  unfold Slot.line Slot.elementLine
  split
  · apply Quiet.text_cons
    refine Quiet.append ?_ (quiet_text _)
    cases Config.printedNames slot.names with
    | nil => exact quiet_untyped subject slot.warning
    | cons raw raws => exact Quiet.nil
  · exact (quiet_typeOrAny subject slot.names slot.warning).text_cons _

theorem quiet_returnLine (c : Config) (subject : String) (returns : List Param) :
    Quiet (returnLine c subject returns) := by
  unfold returnLine
  cases Config.printedNames (returns.flatMap Param.alternatives) <;> exact Quiet.nil

/-- A parameter list and a return type with text before, between and after them. -/
theorem quiet_signature (c : Config) (subject : String) (params returns : List Param)
    (before between after : String) :
    Quiet (.text before :: paramsLine subject params ++
      .text between :: returnLine c subject returns ++ [.text after]) := by
  have parameters := (quiet_paramsLine subject params).text_cons before
  have result := (quiet_returnLine c subject returns).text_cons between
  exact (parameters.append result).append (quiet_text after)

end Line

namespace Rendering

theorem Quiet.empty : Quiet {} := fun _ mem => nomatch mem

theorem Quiet.append {first second : Rendering} (h : first.Quiet) (h' : second.Quiet) :
    (first ++ second).Quiet := by
  intro f mem
  rw [notes, entries_append, List.flatMap_append, List.mem_append] at mem
  exact mem.elim (h f) (h' f)

theorem quiet_line {pieces : Line} (h : Line.Quiet pieces) : (line pieces).Quiet := by
  intro f mem
  exact h f (by simpa [notes, line, Entry.notes] using mem)

theorem Quiet.block {header : Line} (h : Line.Quiet header) {body : Rendering} (h' : body.Quiet) :
    (Rendering.block header body).Quiet := by
  intro f mem
  have parts : f ∈ Line.notes header ∨ f ∈ body.notes := by
    simpa [notes, Rendering.block, Entry.notes, Line.notes, Piece.notes] using mem
  exact parts.elim (h f) (h' f)

theorem quiet_ofSteps (steps : List Page.Step) : (ofSteps steps).Quiet := by
  intro f mem
  obtain ⟨entry, inside, mem⟩ := List.mem_flatMap.1 mem
  obtain ⟨step, -, rfl⟩ := List.mem_map.1 inside
  cases step <;> cases mem

theorem quiet_finding {found : Finding} (h : found.isUntypedArray = false) :
    (finding found).Quiet := by
  intro f mem
  rw [List.mem_singleton.1 mem]
  exact h

theorem quiet_docs (c : Config) (d : Doclet) (description : Option String) (label : String)
    (tags : List String) : (docs c d description label tags).Quiet := by
  refine Quiet.append ?_ (quiet_ofSteps _)
  split
  · exact quiet_finding rfl
  · exact Quiet.empty

end Rendering

open Rendering in
theorem Member.quiet_render (c : Config) (level : Nat) (m : Member) : (m.render c level).Quiet := by
  unfold render
  cases c.memberReplacements.get? m.doclet.longname with
  | some replacement => exact quiet_ofSteps _
  | none =>
    show (m.renderOwn c level).Quiet
    unfold renderOwn propertyLine methodLine
    cases m.form with
    | property =>
      refine (quiet_docs c _ _ _ _).append (quiet_line ?_)
      exact ((Line.quiet_typeOrAny _ _ _).text_cons _).append (Line.quiet_text _)
    | method =>
      refine (quiet_docs c _ _ _ _).append (quiet_line ?_)
      exact Line.quiet_signature c _ _ _ _ _ _

open Rendering in
theorem Constructor.quiet_render (c : Config) (k : Constructor) : (k.render c).Quiet :=
  (quiet_docs c _ _ _ _).append
    (quiet_line (((Line.quiet_paramsLine _ _).text_cons _).append (Line.quiet_text _)))

open Rendering in
theorem Doclet.quiet_renderTypedef (c : Config) (d : Doclet) : (d.renderTypedef c).Quiet := by
  unfold renderTypedef
  split
  · refine (quiet_docs c _ _ _ _).append (quiet_line ?_)
    exact Line.quiet_signature c _ _ _ _ _ _
  · refine (quiet_docs c _ _ _ _).append ?_
    unfold aliasLines
    cases Config.printedNames d.alternatives with
    | nil =>
      refine (quiet_line Line.Quiet.nil).append (quiet_line ?_)
      exact ((Line.quiet_untyped _ _).append Line.Quiet.nil).text_cons _
    | cons raw raws => exact quiet_line Line.Quiet.nil

end Ambient
