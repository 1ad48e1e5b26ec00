import Ambient.Declaration.Documentation
import Ambient.Declaration.Parameters
/-!
# The text of declarations

## Main definitions

* `Member.render`, `Constructor.render`, `AddedInterface.render`, `AddedAlias.render`: the
  renderings of declarations without members.
* `Doclet.renderTypedef`: the rendering of a typedef without members.
* `Declaration.render`: the rendering of a declaration at a level.
-/

namespace Ambient

/-! ## Members -/

/-- `declare` and a blank, at the top level unless the configuration leaves it out. -/
def declareWord (c : Config) (level : Nat) : String :=
  if level = 0 ∧ c.declaresTopLevel then "declare " else ""

/-- The key of a property. A name that is no identifier is put into quotes. -/
def keyText (name : String) : String :=
  if Text.isIdentifier name.toList then name else "\"" ++ name ++ "\""

namespace MemberReplacement

/-- The replacement text of a member. -/
def render (r : MemberReplacement) : Rendering :=
  let comment := match r.description with
    | some description => Page.Step.commentBlock (Text.linesOf description)
    | none => []
  .ofSteps (comment ++ Page.Step.lines r.declaration)

end MemberReplacement

namespace Member

/-- `static` and a blank for static members. -/
def staticPrefix (m : Member) : String :=
  if m.doclet.isStatic then "static " else ""

/-- What a property is printed with up to its type. -/
def propertyHead (c : Config) (level : Nat) (m : Member) : String :=
  let key := keyText m.doclet.printedName
  match m.owner with
  | .classBody => m.staticPrefix ++ key ++ ": "
  | .interfaceBody => key ++ (if m.mayBeMissing then "?" else "") ++ ": "
  | .moduleLevel =>
    let keyword := if m.doclet.kind = .constant then "const" else "var"
    declareWord c level ++ keyword ++ " " ++ key ++ ": "

/-- The line of a property. -/
def propertyLine (c : Config) (level : Nat) (m : Member) : Line :=
  .text (m.propertyHead c level) ::
    typeOrAny m.doclet.longname m.doclet.alternatives "property has no type, emitting any" ++
      [.text ";"]

/-- What a function is printed with up to its parameters. -/
def methodHead (c : Config) (level : Nat) (m : Member) : String :=
  let name := m.doclet.printedName ++ placeholderList m.doclet.placeholders
  match m.owner with
  | .classBody => m.staticPrefix ++ name
  | .interfaceBody => name
  | .moduleLevel => declareWord c level ++ "function " ++ name

/-- The line of a function. -/
def methodLine (c : Config) (level : Nat) (m : Member) : Line :=
  .text (m.methodHead c level ++ "(") :: paramsLine m.doclet.longname m.doclet.params ++
    .text "): " :: returnLine c m.doclet.longname m.doclet.returns ++ [.text ";"]

/-- The rendering of a member that the configuration does not replace. -/
def renderOwn (c : Config) (level : Nat) (m : Member) : Rendering :=
  match m.form with
  | .property =>
    docs c m.doclet m.doclet.description "property" [] ++ .line (m.propertyLine c level)
  | .method =>
    docs c m.doclet m.doclet.description "function"
        (tagLines m.doclet.params m.doclet.returns) ++
      .line (m.methodLine c level)

/-- The rendering of a member at a level. -/
def render (c : Config) (level : Nat) (m : Member) : Rendering :=
  match c.memberReplacements.get? m.doclet.longname with
  | some replacement => replacement.render
  | none => m.renderOwn c level

end Member

namespace Constructor

/-- The description of a constructor. If the class has one of its own, the description of the record
is that of the constructor. -/
def description (c : Config) (k : Constructor) : String :=
  match k.doclet.classdesc, k.doclet.description with
  | some _, some description => description
  | _, _ => c.constructorText k.doclet.longname

/-- The rendering of a constructor. -/
def render (c : Config) (k : Constructor) : Rendering :=
  docs c k.doclet (some (k.description c)) "constructor" (tagLines k.doclet.params []) ++
    .line (.text "constructor(" :: paramsLine k.doclet.longname k.doclet.params ++ [.text ");"])

end Constructor

namespace AddedInterface

/-- The line of a member: its text, closed by a semicolon unless it is closed already. -/
def memberLine (member : String) : String :=
  let bare := Text.trimmed member
  match bare.toList.getLast? with
  | some ';' => bare
  | some '\x7d' => bare
  | _ => bare ++ ";"

/-- The rendering of an interface that the configuration adds. -/
def render (i : AddedInterface) : Rendering :=
  .block [.text ("interface " ++ i.name)]
    (.ofSteps (i.members.map fun m => .line (memberLine m)))

end AddedInterface

namespace AddedAlias

/-- The type text of an alias, without semicolons at its end. -/
def targetText (a : AddedAlias) : String :=
  let bare := (Text.trim a.target.toList).reverse
  String.ofList (bare.dropWhile (· == ';')).reverse

/-- The rendering of an alias that the configuration adds. -/
def render (a : AddedAlias) : Rendering :=
  .line [.text ("type " ++ a.name ++ " = " ++ a.targetText ++ ";")]

end AddedAlias

/-! ## Classes and typedefs -/

namespace Doclet

/-- The `extends` and `implements` clauses of a class: the first type that it augments, and the
others. -/
def heritage (d : Doclet) : Line :=
  match d.augments with
  | [] => []
  | [parent] => [.text " extends ", .types d.longname [parent]]
  | parent :: others =>
    [.text " extends ", .types d.longname [parent], .text " implements "] ++
      Line.joinWith ", " (others.map fun other => [.types d.longname [other]])

/-- What is found if a class augments several types. -/
def surplusParents (d : Doclet) : Rendering :=
  if d.augments.length > 1 then
    .finding (.about .info .extraAugments d.longname
      ("class augments " ++ toString d.augments.length ++
        " types, extra ones emitted as implements"))
  else {}

/-- The header of a class, without its brace. -/
def classHeader (c : Config) (level : Nat) (d : Doclet) : Line :=
  .text (declareWord c level ++ "class " ++ d.printedName ++ placeholderList d.placeholders) ::
    d.heritage

/-- The documentation comment of a class. -/
def classDocs (c : Config) (d : Doclet) : Rendering :=
  docs c d (d.classdesc <|> d.description) "class" []

/-- The name of a typedef with its placeholders. -/
def typedefName (d : Doclet) : String :=
  d.printedName ++ placeholderList d.placeholders

/-- The rendering of a typedef that is a function type. -/
def renderFunction (c : Config) (d : Doclet) : Rendering :=
  docs c d d.description "type" (tagLines d.params d.returns) ++
    .line (.text ("type " ++ d.typedefName ++ " = (") :: paramsLine d.longname d.params ++
      .text ") => " :: returnLine c d.longname d.returns ++ [.text ";"])

/-- The lines of a typedef that stands for its type. -/
def aliasLines (d : Doclet) : Rendering :=
  let head := "type " ++ d.typedefName ++ " = "
  match Config.printedNames d.alternatives with
  | [] =>
    .line [.text ("// No type information found for " ++ d.longname)] ++
      .line [.text head,
        .untyped (untypedWarning d.longname "typedef has no type information, emitting any"),
        .text ";"]
  | raws => .line [.text head, .types d.longname raws, .text ";"]

/-- The rendering of a typedef without members: a function type or an alias. -/
def renderTypedef (c : Config) (d : Doclet) : Rendering :=
  if d.hasSignature then d.renderFunction c
  else docs c d d.description "type" [] ++ d.aliasLines

end Doclet

namespace Declaration

mutual

/-- The rendering of a declaration at a level. -/
def render (c : Config) (level : Nat) : Declaration → Rendering
  | .classType d _ members =>
    d.classDocs c ++
      .block (d.classHeader c level)
        (d.surplusParents ++ ((constructor? d).map (Constructor.render c)).getD {} ++
          renderPublic c (level + 1) members)
  | .typedef d _ [] => d.renderTypedef c
  | .typedef d _ (first :: rest) =>
    docs c d d.description "type" [] ++
      .block [.text ("interface " ++ d.typedefName)]
        (render c (level + 1) first ++ renderAll c (level + 1) rest)
  | .member m => m.render c level
  | .ctor k => k.render c
  | .addedInterface i => i.render
  | .addedAlias a => a.render

/-- The rendering of the public ones of some declarations. -/
def renderPublic (c : Config) (level : Nat) : List Declaration → Rendering
  | [] => {}
  | d :: rest =>
    if d.isPublic then render c level d ++ renderPublic c level rest else renderPublic c level rest

/-- The rendering of some declarations. -/
def renderAll (c : Config) (level : Nat) : List Declaration → Rendering
  | [] => {}
  | d :: rest => render c level d ++ renderAll c level rest

end

end Declaration

end Ambient
