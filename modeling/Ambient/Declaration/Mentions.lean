import Ambient.Declaration.Basic
import Ambient.FunctionTypedef
import Ambient.References
import Ambient.TypeText
/-!
# What declarations mention

A visit goes through the type expressions of a declaration, from left to right. What it records is
left open: the expressions themselves, or the names in them. A declaration with placeholders of its
own is visited apart, and what came up inside is taken over without the placeholders.

## Main definitions

* `Recorder`: what a visit does with the expressions that it passes.
* `Declaration.visit`: the visit of a declaration.
* `Mention`, `Declaration.mentions`: the expressions of a declaration, in order, each with the
  placeholders that are known where it stands.
* `Declaration.collect`: a set of references with the names in a declaration that could stand for a
  documented one.

## Design notes

Private members of a class are not part of its surface and mention nothing. All members of an
interface belong to it.
-/

namespace Ambient

/-- What a visit does with the type expressions that it passes. -/
structure Recorder (σ : Type) where
  /-- Nothing was recorded yet. -/
  start : σ
  /-- Record one type expression. -/
  record : σ → String → σ
  /-- Take over what was recorded inside a declaration with some placeholders. -/
  leave : σ → σ → List String → σ

namespace Recorder

variable {σ : Type}

/-- Record some type expressions from left to right. -/
def recordAll (rec : Recorder σ) (raws : List String) (s : σ) : σ :=
  raws.foldl rec.record s

/-- Record some type expressions inside a declaration with some placeholders. -/
def recordWithin (rec : Recorder σ) (placeholders raws : List String) (s : σ) : σ :=
  rec.leave s (rec.recordAll raws rec.start) placeholders

end Recorder

/-- A raw type expression with the placeholders that are known where it stands. -/
structure Mention where
  raw : String
  /-- Names that stand for no declaration here. -/
  bound : List String
  deriving DecidableEq, Repr

namespace Mention

/-- The same expression inside a declaration with placeholders of its own. -/
def within (placeholders : List String) (m : Mention) : Mention :=
  { m with bound := m.bound ++ placeholders }

/-- Record the type expressions themselves. -/
def recorder : Recorder (List Mention) where
  start := []
  record mentions raw := mentions ++ [{ raw, bound := [] }]
  leave outer inner placeholders := outer ++ inner.map (within placeholders)

end Mention

/-- Record the names that could stand for a documented declaration. -/
def References.recorder (c : Config) : Recorder References where
  start := .empty
  record r raw := r.addAll (TypeExpr.Event.references (c.typeText raw).events)
  leave := References.insertFree

/-- The parameters that are part of a signature: entries for fields of another parameter are not. -/
def plainParams (params : List Param) : List Param :=
  params.filter fun p => !p.isNested

/-- The type expressions of a signature. -/
def signatureTypes (params returns : List Param) : List String :=
  (plainParams params).flatMap (fun p => Config.printedNames p.alternatives) ++
    returns.flatMap fun r => Config.printedNames r.alternatives

/-- Whether a typedef is a function type with a known signature. -/
def Doclet.hasSignature (d : Doclet) : Bool :=
  FunctionTypedef.isMarked d || (d.isPlainFunction && (!d.params.isEmpty || !d.returns.isEmpty))

namespace Member

/-- Visit a member. -/
def visit {σ : Type} (rec : Recorder σ) (m : Member) (s : σ) : σ :=
  match m.form with
  | .property => rec.recordAll (Config.printedNames m.doclet.alternatives) s
  | .method =>
    rec.recordWithin m.doclet.placeholders (signatureTypes m.doclet.params m.doclet.returns) s

end Member

/-- Visit a constructor. -/
def Constructor.visit {σ : Type} (rec : Recorder σ) (k : Constructor) (s : σ) : σ :=
  rec.recordWithin k.generics (signatureTypes k.doclet.params []) s

namespace AddedInterface

/-- The text after a `readonly` that is followed by a name. -/
def afterReadonly (text : List Char) : List Char :=
  match Text.dropStart? "readonly".toList text with
  | none => text
  | some rest =>
    match rest with
    | [] => text
    | c :: _ =>
      match Text.trimStart rest with
      | [] => text
      | d :: more => if Text.isBlank c && Text.isNameChar d then d :: more else text

/-- The type at the end of a property member: blanks around it and one semicolon at its end are no
part of it. It may not span lines. -/
def propertyType? (text : List Char) : Option (List Char) :=
  let bare := Text.trim text
  let type := match Text.dropFinish? [';'] bare with
    | some before => Text.trimEnd before
    | none => bare
  let type := if type.isEmpty then bare else type
  if type.isEmpty || type.contains '\n' then none else some type

/-- The type of a member text that is a property: an optional `readonly`, a name, an optional
question mark, a colon and the type. -/
def memberType? (member : List Char) : Option (List Char) :=
  let text := afterReadonly (Text.trimStart member)
  if (text.takeWhile Text.isNameChar).isEmpty then none
  else
    let rest := text.dropWhile Text.isNameChar
    let rest := (Text.dropStart? ['?'] rest).getD rest
    match Text.trimStart rest with
    | ':' :: type => propertyType? type
    | _ => none

/-- The type expressions of the property members; what methods mention is not looked at. -/
def propertyTypes (i : AddedInterface) : List String :=
  i.members.filterMap fun member => (memberType? member.toList).map String.ofList

end AddedInterface

/-- The type expressions of a typedef without members. -/
def Doclet.typedefTypes (d : Doclet) : List String :=
  if d.hasSignature then signatureTypes d.params d.returns else Config.printedNames d.alternatives

namespace Declaration

variable {σ : Type}

/-- Visit the constructor of a class, unless the record hides it. -/
def visitConstructor (rec : Recorder σ) (d : Doclet) (s : σ) : σ :=
  match constructor? d with
  | some k => k.visit rec s
  | none => s

mutual

/-- Visit a declaration. -/
def visit (rec : Recorder σ) : Declaration → σ → σ
  | .classType d _ members, s =>
    rec.leave s
      (visitPublic rec members (visitConstructor rec d (rec.recordAll d.augments rec.start)))
      d.placeholders
  | .typedef d _ [], s => rec.recordWithin d.placeholders d.typedefTypes s
  | .typedef d _ (first :: rest), s =>
    rec.leave s (visitAll rec rest (visit rec first rec.start)) d.placeholders
  | .member m, s => m.visit rec s
  | .ctor k, s => k.visit rec s
  | .addedInterface i, s => rec.recordAll i.propertyTypes s
  | .addedAlias a, s => rec.record s a.target

/-- Visit the public ones of some declarations. -/
def visitPublic (rec : Recorder σ) : List Declaration → σ → σ
  | [], s => s
  | d :: rest, s => visitPublic rec rest (if d.isPublic then visit rec d s else s)

/-- Visit some declarations. -/
def visitAll (rec : Recorder σ) : List Declaration → σ → σ
  | [], s => s
  | d :: rest, s => visitAll rec rest (visit rec d s)

end

/-- The type expressions of a declaration, in order. -/
def mentions (d : Declaration) : List Mention :=
  d.visit Mention.recorder []

/-- A set of references with those of a declaration added. -/
def collect (c : Config) (d : Declaration) (r : References) : References :=
  d.visit (References.recorder c) r

end Declaration

end Ambient
