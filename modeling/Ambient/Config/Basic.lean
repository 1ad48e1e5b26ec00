import Ambient.OrderedMap
import Ambient.Text.Blank
import Ambient.Text.Search
/-!
# Configuration

## Main definitions

* `Config`: every option of a run, with its default.
* `Additions`: declarations that the configuration adds, globally or to a module.
* `Config.replacement?`: the configured or built-in replacement of a type expression.
* `Config.check`: refuse settings that no run can work with, with `Config.Problem` as the reason.
* `Config.addAlias` and so on: the configuration after one more entry.
-/

namespace Ambient

/-- Declarations added by the configuration, by name. -/
structure Additions (α : Type) where
  /-- Declarations at global scope. -/
  global : OrderedMap α := .empty
  /-- Declarations inside modules, by module path. -/
  byModule : OrderedMap (OrderedMap α) := .empty

namespace Additions

variable {α : Type}

/-- All declarations with the module they go to, the global ones first. -/
def entries (u : Additions α) : List (Option String × String × α) :=
  (u.global.entries.map fun (name, value) => (none, name, value)) ++
    u.byModule.entries.flatMap fun (path, inner) =>
      inner.entries.map fun (name, value) => (some path, name, value)

/-- Whether there is no declaration. -/
def isEmpty (u : Additions α) : Bool :=
  u.global.isEmpty && u.byModule.values.all OrderedMap.isEmpty

/-- Put one declaration, at global scope or into a module. -/
def insert (u : Additions α) (path : Option String) (name : String) (value : α) :
    Additions α :=
  match path with
  | none => { u with global := u.global.insert name value }
  | some path =>
    let inner := (u.byModule.get? path).getD .empty
    { u with byModule := u.byModule.insert path (inner.insert name value) }

end Additions

/-- Text that stands in for one generated member. -/
structure MemberReplacement where
  /-- The text of the comment above the declaration. -/
  description : Option String := none
  /-- The declaration itself. -/
  declaration : String
  deriving DecidableEq

/-- The options of a run. -/
structure Config where
  /-- The name of the output file, without its ending. -/
  rootModuleName : String := "generated"
  /-- The directory of the output file. -/
  outDir : String := "."
  /-- Raw type expressions and the types that stand in for them. -/
  typeReplacements : OrderedMap String := .empty
  /-- The description of constructors that have none; the class name stands in for the mark. -/
  defaultCtorDesc : String := "Constructor for %TYPENAME%"
  /-- Whether declarations without description get a comment that says so. -/
  fillUndocumentedDoclets : Bool := false
  /-- Whether the record is written above each declaration, as comment lines. -/
  outputDocletDefs : Bool := false
  /-- The tag that marks what is public; if there is none, access decides. -/
  publicAnnotation : Option String := none
  /-- The return type of functions that have none. -/
  defaultReturnType : String := "any"
  /-- Type aliases to add. -/
  aliases : Additions String := {}
  /-- Interfaces to add, each with the texts of its members. -/
  interfaces : Additions (List String) := {}
  /-- Longnames of which nothing is generated. -/
  ignore : List String := []
  /-- Longnames that are public whatever their record says. -/
  makePublic : List String := []
  /-- A file whose text comes before the declarations. -/
  headerFile : Option String := none
  /-- A file whose text comes after the declarations. -/
  footerFile : Option String := none
  /-- Replacements of generated members, by longname. -/
  memberReplacements : OrderedMap MemberReplacement := .empty
  /-- Whether `declare` is left out at the top level. -/
  doNotDeclareTopLevelElements : Bool := false

namespace Config

/-- The replacements every run starts from. -/
def builtinReplacements : List (String × String) :=
  [("*", "any"), ("?", "any"), ("Object", "any"), ("function", "Function")]

/-- The replacement of a type expression; configured ones come first. -/
def replacement? (c : Config) (raw : String) : Option String :=
  match c.typeReplacements.get? raw with
  | some replacement => some replacement
  | none => builtinReplacements.lookup raw

/-- The mark for the class name in the description of constructors. -/
def typeNameMark : String := "%TYPENAME%"

/-- The description of a constructor that has none. -/
def constructorText (c : Config) (typeName : String) : String :=
  Text.replaced typeNameMark typeName c.defaultCtorDesc

/-- Whether nothing is generated for a longname. -/
def leavesOut (c : Config) (longname : String) : Bool :=
  c.ignore.contains longname

/-- Whether `declare` is written at the top level. -/
def declaresTopLevel (c : Config) : Bool :=
  !c.doNotDeclareTopLevelElements

/-! ## Checking -/

/-- A setting that no run can work with. -/
inductive Problem
  | emptyRootModuleName
  | emptyDefaultReturnType
  /-- The replacement of a member has no text. -/
  | emptyReplacement (longname : String)
  deriving DecidableEq, Repr

/-- What is said about a setting. -/
def Problem.message : Problem → String
  | .emptyRootModuleName => "rootModuleName must not be empty"
  | .emptyDefaultReturnType => "defaultReturnType must not be empty"
  | .emptyReplacement longname =>
    "memberReplacements entry '" ++ longname ++ "' has an empty declaration"

/-- The first setting that no run can work with, if there is one. -/
def problem? (c : Config) : Option Problem :=
  if Text.isAllBlank c.rootModuleName then some .emptyRootModuleName
  else if Text.isAllBlank c.defaultReturnType then some .emptyDefaultReturnType
  else
    (c.memberReplacements.entries.find? fun (_, replacement) =>
      Text.isAllBlank replacement.declaration).map fun (longname, _) => .emptyReplacement longname

/-- The configuration itself, unless it has a setting that no run can work with. -/
def check (c : Config) : Except Problem Config :=
  match c.problem? with
  | some problem => .error problem
  | none => .ok c

/-! ## Adding entries -/

/-- The configuration with one more type replacement. -/
def addTypeReplacement (c : Config) (raw replacement : String) : Config :=
  { c with typeReplacements := c.typeReplacements.insert raw replacement }

/-- The configuration with one more longname that is public. -/
def addPublic (c : Config) (longname : String) : Config :=
  { c with makePublic := c.makePublic ++ [longname] }

/-- The configuration with one more longname that is left out. -/
def addIgnored (c : Config) (longname : String) : Config :=
  { c with ignore := c.ignore ++ [longname] }

/-- The configuration with one more alias. -/
def addAlias (c : Config) (path : Option String) (name target : String) : Config :=
  { c with aliases := c.aliases.insert path name target }

/-- The configuration with one more interface. -/
def addInterface (c : Config) (path : Option String) (name : String) (members : List String) :
    Config :=
  { c with interfaces := c.interfaces.insert path name members }

/-- The configuration with one more member replacement. -/
def addMemberReplacement (c : Config) (longname : String) (replacement : MemberReplacement) :
    Config :=
  { c with memberReplacements := c.memberReplacements.insert longname replacement }

end Config

end Ambient
