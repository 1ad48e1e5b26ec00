import Ambient.Config.Basic
import Ambient.Doclet.Basic
/-!
# Declarations

What can be written to a declaration file. Types and members come from documentation records, some
interfaces and aliases from the configuration.

## Main definitions

* `Member`: a property or function of a class, an interface or a module.
* `Constructor`: the constructor of a class.
* `AddedInterface`, `AddedAlias`: types that the configuration adds.
* `Declaration`: any of these, or a class or typedef with its members.
* `Declaration.fullName`, `Declaration.modulePath`, `Declaration.isPublic`,
  `Declaration.isType`: what is asked of every declaration.
-/

namespace Ambient

/-- Where a member is written. -/
inductive Owner
  | classBody
  | interfaceBody
  | moduleLevel
  deriving DecidableEq, Repr

/-- Whether a member is written as a property or as a function. -/
inductive MemberForm
  | property
  | method
  deriving DecidableEq, Repr

/-- A property or function of a class, an interface or a module. -/
structure Member where
  form : MemberForm
  doclet : Doclet
  owner : Owner
  isPublic : Bool

namespace Member

/-- A member that is public if its record says so. -/
def ofDoclet (form : MemberForm) (owner : Owner) (d : Doclet) (c : Config) : Member :=
  { form, doclet := d, owner, isPublic := d.isPublicByItself c.publicAnnotation }

/-- The interface member for a property entry of a typedef. It is as visible as the typedef. Unnamed
entries and entries for fields of another property make no member. -/
def ofProperty? (typedef : Doclet) (property : Param) : Option Member :=
  match property.name with
  | none => none
  | some name =>
    if property.isNested then none
    else some {
      form := .property
      doclet := {
        name
        longname := typedef.longname ++ "#" ++ name
        kind := .member
        memberof := some typedef.longname
        type := property.type
        description := property.description
        isOptional := property.optionalMark
        nullable := property.nullableMark }
      owner := .interfaceBody
      isPublic := true }

/-- Whether an interface property may be missing: it is marked as optional or nullable, or its type
admits no value. -/
def mayBeMissing (m : Member) : Bool :=
  m.doclet.isOptional = some true || m.doclet.nullable = some true ||
    match m.doclet.type with
    | some type => type.allowsMissing
    | none => false

end Member

/-- The constructor of a class. The placeholders of the class are known in it. -/
structure Constructor where
  /-- The record of the class. -/
  doclet : Doclet
  generics : List String

/-- A name inside a module, with the path of the module in front. -/
def inModule (path : Option String) (name : String) : String :=
  match path with
  | some path => path ++ "." ++ name
  | none => name

/-- An interface that the configuration adds. -/
structure AddedInterface where
  path : Option String
  name : String
  /-- The texts of the members. -/
  members : List String

/-- A type alias that the configuration adds. -/
structure AddedAlias where
  path : Option String
  name : String
  /-- The text of the type. -/
  target : String

/-- Anything that can be written to a declaration file. -/
inductive Declaration
  | classType (doclet : Doclet) (isPublic : Bool) (members : List Declaration)
  | typedef (doclet : Doclet) (isPublic : Bool) (members : List Declaration)
  | member (m : Member)
  | ctor (k : Constructor)
  | addedInterface (i : AddedInterface)
  | addedAlias (a : AddedAlias)

namespace Declaration

/-- The class of a record, still without members. -/
def classOf (d : Doclet) (c : Config) : Declaration :=
  .classType d (d.isPublicByItself c.publicAnnotation) []

/-- The typedef of a record, still without members. -/
def typedefOf (d : Doclet) (c : Config) : Declaration :=
  .typedef d (d.isPublicByItself c.publicAnnotation) []

/-- The constructor of a class, unless the record hides it. -/
def constructor? (d : Doclet) : Option Constructor :=
  if d.hasTag "hideconstructor" then none else some { doclet := d, generics := d.placeholders }

/-- The longname, or the name with its module of a type that the configuration adds. -/
def fullName : Declaration → String
  | .classType d _ _ => d.longname
  | .typedef d _ _ => d.longname
  | .member m => m.doclet.longname
  | .ctor k => k.doclet.longname
  | .addedInterface i => inModule i.path i.name
  | .addedAlias a => inModule a.path a.name

/-- The path of the module that the declaration goes to; none at global scope. -/
def modulePath : Declaration → Option String
  | .classType d _ _ => d.modulePath
  | .typedef d _ _ => d.modulePath
  | .member m => m.doclet.modulePath
  | .ctor _ => none
  | .addedInterface i => i.path
  | .addedAlias a => a.path

/-- Whether the declaration belongs to the public surface. -/
def isPublic : Declaration → Bool
  | .classType _ isPublic _ => isPublic
  | .typedef _ isPublic _ => isPublic
  | .member m => m.isPublic
  | .ctor _ | .addedInterface _ | .addedAlias _ => true

/-- The declaration as part of the public surface. -/
def published : Declaration → Declaration
  | .classType d _ members => .classType d true members
  | .typedef d _ members => .typedef d true members
  | .member m => .member { m with isPublic := true }
  | declaration => declaration

/-- Whether the declaration is a type. -/
def isType : Declaration → Bool
  | .classType .. | .typedef .. | .addedInterface _ | .addedAlias _ => true
  | .member _ | .ctor _ => false

/-- Add a member to a class or typedef; other declarations have none. -/
def addMember (declaration added : Declaration) : Declaration :=
  match declaration with
  | .classType d isPublic members => .classType d isPublic (members ++ [added])
  | .typedef d isPublic members => .typedef d isPublic (members ++ [added])
  | declaration => declaration

/-- The members of a class or typedef. -/
def members : Declaration → List Declaration
  | .classType _ _ members => members
  | .typedef _ _ members => members
  | _ => []

@[simp] theorem isPublic_published (d : Declaration) : d.published.isPublic = true := by
  cases d <;> rfl

@[simp] theorem fullName_published (d : Declaration) : d.published.fullName = d.fullName := by
  cases d <;> rfl

end Declaration

end Ambient
