import Ambient.Declaration.Mentions
/-!
# The catalogue of declarations

All declarations of one run. Types are found by longname; members are attached to the type that owns
them, or kept as members of a module.

## Main definitions

* `TypeEntry`: a class or typedef with its members.
* `AddedType`: a type that the configuration adds.
* `Catalogue`: the tables.
* `Catalogue.build`: the catalogue of some records, with the findings on repeated definitions.
* `Catalogue.declared`, `Catalogue.emitted`: what the records declare, and what is written.
* `PublicType`, `Catalogue.publicTypes`: the types of the public surface.

## Design notes

Classes and typedefs share one table, so a longname stands for at most one of them. Within the table
each of the two keeps the order in which its entries came in.
-/

namespace Ambient

/-- A class or typedef with its members. -/
structure TypeEntry where
  doclet : Doclet
  isPublic : Bool
  members : List Member

namespace TypeEntry

/-- The entry of a record, with the members that its own properties make. -/
def ofDoclet (d : Doclet) (c : Config) : TypeEntry where
  doclet := d
  isPublic := d.isPublicByItself c.publicAnnotation
  members := if d.kind = .typedef then d.properties.filterMap (Member.ofProperty? d) else []

/-- Whether the entry is a class. -/
def isClass (e : TypeEntry) : Bool := e.doclet.kind = .classType

/-- The place of the members of an entry. -/
def ownerOfMembers (e : TypeEntry) : Owner :=
  if e.isClass then .classBody else .interfaceBody

/-- The declaration of an entry. -/
def toDeclaration (e : TypeEntry) : Declaration :=
  let members := e.members.map Declaration.member
  if e.isClass then .classType e.doclet e.isPublic members
  else .typedef e.doclet e.isPublic members

/-- The entry as part of the public surface. -/
def publish (e : TypeEntry) : TypeEntry := { e with isPublic := true }

/-- The entry with one more member. -/
def attach (e : TypeEntry) (m : Member) : TypeEntry := { e with members := e.members ++ [m] }

end TypeEntry

/-- A type that the configuration adds. -/
inductive AddedType
  | interface (i : AddedInterface)
  | typeAlias (a : AddedAlias)

namespace AddedType

/-- The declaration of a type that the configuration adds. -/
def toDeclaration : AddedType → Declaration
  | .interface i => .addedInterface i
  | .typeAlias a => .addedAlias a

/-- The name of the type with its module. -/
def fullName (t : AddedType) : String := t.toDeclaration.fullName

end AddedType

namespace PublicType

/-- What kind of type is listed. -/
inductive Kind
  | classType
  | typedef
  | interface
  | typeAlias
  deriving DecidableEq, Repr

/-- The word printed for a kind. -/
def Kind.text : Kind → String
  | .classType => "class"
  | .typedef => "typedef"
  | .interface => "interface"
  | .typeAlias => "alias"

end PublicType

/-- A type of the public surface, as it is listed. -/
structure PublicType where
  kind : PublicType.Kind
  name : String
  deriving DecidableEq, Repr

namespace PublicType

/-- The listing of a declaration; members are not listed. -/
def ofDeclaration? (d : Declaration) : Option PublicType :=
  match d with
  | .classType .. => some ⟨.classType, d.fullName⟩
  | .typedef .. => some ⟨.typedef, d.fullName⟩
  | .addedInterface _ => some ⟨.interface, d.fullName⟩
  | .addedAlias _ => some ⟨.typeAlias, d.fullName⟩
  | .member _ | .ctor _ => none

end PublicType

/-- The declarations of one run. -/
structure Catalogue where
  /-- Classes and typedefs by longname. -/
  types : OrderedMap TypeEntry := .empty
  /-- Types that the configuration adds, by full name. -/
  addedTypes : OrderedMap AddedType := .empty
  /-- Members that no class or typedef owns. -/
  moduleMembers : List Member := []

namespace Catalogue

/-- The classes, in the order in which they came in. -/
def classes (k : Catalogue) : List (String × TypeEntry) :=
  k.types.entries.filter fun entry => entry.2.isClass

/-- The typedefs, in the order in which they came in. -/
def typedefs (k : Catalogue) : List (String × TypeEntry) :=
  k.types.entries.filter fun entry => !entry.2.isClass

/-- What the records declare: classes, typedefs, and then module members. -/
def declared (k : Catalogue) : List Declaration :=
  (k.classes ++ k.typedefs).map (fun entry => entry.2.toDeclaration) ++
    k.moduleMembers.map Declaration.member

/-- The declarations that the configuration adds. -/
def addedDeclarations (k : Catalogue) : List Declaration :=
  k.addedTypes.values.map AddedType.toDeclaration

/-- What is written: the public part of what the records declare, and what the configuration
adds. -/
def emitted (k : Catalogue) : List Declaration :=
  k.declared.filter Declaration.isPublic ++ k.addedDeclarations

/-- The types of the public surface. -/
def publicTypes (k : Catalogue) : List PublicType :=
  k.emitted.filterMap PublicType.ofDeclaration?

/-- The class or typedef of a longname. -/
def resolve? (k : Catalogue) (name : String) : Option TypeEntry :=
  k.types.get? name

/-- Make the class or typedef of a longname public. -/
def publish (k : Catalogue) (name : String) : Catalogue :=
  { k with types := k.types.modify name TypeEntry.publish }

/-! ## Building -/

/-- The finding that a longname is defined again. -/
def duplicateDefinition (longname : String) : Finding where
  severity := .info
  message := "duplicate definition of " ++ longname ++ ", keeping the first"

/-- Register the class or typedef of a record. The first record of a longname counts. -/
def addType (c : Config) (state : Catalogue × List Finding) (d : Doclet) :
    Catalogue × List Finding :=
  let (k, findings) := state
  if k.types.contains d.longname then (k, findings ++ [duplicateDefinition d.longname])
  else ({ k with types := k.types.insert d.longname (.ofDoclet d c) }, findings)

/-- The records of classes and typedefs that are not left out. -/
def typeDoclets (c : Config) (doclets : List Doclet) : List Doclet :=
  doclets.filter fun d => d.kind.makesType && !c.leavesOut d.longname

/-- Whether no member is made of a record: an inherited copy, an inner symbol, or a record that is
left out together with its parent or by itself. -/
def passesOver (c : Config) (d : Doclet) : Bool :=
  d.inherited || d.scope = some .innerMember || c.leavesOut d.longname ||
    match d.memberof with
    | some parent => c.leavesOut parent
    | none => false

/-- The longnames of the members that are documented somewhere. -/
def documentedMembers (doclets : List Doclet) : List String :=
  (doclets.filter fun d => d.kind.makesMember && !d.undocumented).map Doclet.longname

/-- The records that are left when of each longname only the first one is kept. Longnames that were
already met are given in `seen`. -/
def keepFirst (seen : List String) : List Doclet → List Doclet
  | [] => []
  | d :: rest =>
    if seen.contains d.longname then keepFirst seen rest
    else d :: keepFirst (d.longname :: seen) rest

/-- The records of which members are made. A documented record wins over undocumented copies; of
several records that are left, the first one counts. -/
def memberDoclets (c : Config) (doclets : List Doclet) : List Doclet :=
  let documented := documentedMembers doclets
  keepFirst [] <| doclets.filter fun d =>
    d.kind.makesMember && !passesOver c d &&
      !(d.undocumented && documented.contains d.longname)

/-- The form of the member that a record makes. -/
def memberForm (d : Doclet) : MemberForm :=
  if d.kind = .function then .method else .property

/-- Attach the member of a record to the type that owns it, or to its module. -/
def placeMember (c : Config) (k : Catalogue) (d : Doclet) : Catalogue :=
  let parent := d.memberof.getD ""
  match k.types.get? parent with
  | some entry =>
    let m := Member.ofDoclet (memberForm d) entry.ownerOfMembers d c
    { k with types := k.types.modify parent fun entry => entry.attach m }
  | none =>
    { k with moduleMembers := k.moduleMembers ++ [.ofDoclet (memberForm d) .moduleLevel d c] }

/-- The types that the configuration adds: aliases, and then interfaces. -/
def configuredTypes (c : Config) : List AddedType :=
  (c.aliases.entries.map fun (path, name, target) => .typeAlias { path, name, target }) ++
    c.interfaces.entries.map fun (path, name, members) => .interface { path, name, members }

/-- Put a type that the configuration adds under its full name. -/
def putAddedType (k : Catalogue) (t : AddedType) : Catalogue :=
  { k with addedTypes := k.addedTypes.insert t.fullName t }

/-- The catalogue of some records, with the findings on repeated definitions. -/
def build (c : Config) (doclets : List Doclet) : Catalogue × List Finding :=
  let (withTypes, findings) := (typeDoclets c doclets).foldl (addType c) ({}, [])
  let withMembers := (memberDoclets c doclets).foldl (placeMember c) withTypes
  ((configuredTypes c).foldl putAddedType withMembers, findings)

end Catalogue

end Ambient
