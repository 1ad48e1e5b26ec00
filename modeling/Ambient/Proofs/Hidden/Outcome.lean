import Ambient.Proofs.Alike.Runs
import Ambient.Proofs.Hidden.Records
/-!
# What is out of sight has no influence

Two runs over lists of records that differ out of sight have the same outcome. A run looks at nothing
but what is public in the end, and of that what differs is neither visited nor written: the members
of a class that are not public.

## Main statements

* `TypeEntry.Twin.alike`, `Catalogue.Twin.alike`: no run can tell twins apart.
* `Session.generate_twin`: the outcome for records that differ out of sight.
* `Session.generate_ne_of_nameless_typedef`: a typedef that owns members without an owner.
-/

namespace Ambient

/-- Twin members are alike if they are public. -/
theorem Member.Twin.alike {m m' : Member} (c : Config) (h : m.Twin m') :
    Declaration.IfPublic (Declaration.Alike c) (.member m) (.member m') where
  isPublic := h.isPublic
  related := by
    intro isPublic
    rw [h.same isPublic]
    exact Declaration.Alike.refl c _

/-- Entries that are shown make declarations that are alike. -/
theorem TypeEntry.Twin.alike {shown : Set String} {entry entry' : String × TypeEntry} (c : Config)
    (h : TypeEntry.Twin shown entry entry') (isShown : entry.1 ∈ shown) :
    entry.2.toDeclaration.Alike c entry'.2.toDeclaration := by
  have doclet := h.doclet isShown
  by_cases isClass : entry.2.isClass = true
  · have isClass' := h.isClass.trans isClass
    unfold toDeclaration
    rw [if_pos isClass, if_pos isClass', doclet, h.isPublic]
    exact Declaration.Alike.classType _ _ _
      (List.rel_map (fun _ _ twin => twin.alike c) (h.ofClass isShown isClass))
  · have isTypedef : entry.2.isClass = false := by simpa using isClass
    have isTypedef' := h.isClass.trans isTypedef
    have same : entry'.2.toDeclaration = entry.2.toDeclaration := by
      unfold toDeclaration
      rw [isTypedef, isTypedef', doclet, h.isPublic, h.ofTypedef isShown isTypedef]
    rw [same]
    exact Declaration.Alike.refl c _

/-- Twins that become public are twins. -/
theorem TypeEntry.Twin.publish {shown : Set String} {name : String} {e e' : TypeEntry}
    (h : TypeEntry.Twin shown (name, e) (name, e')) :
    TypeEntry.Twin shown (name, e.publish) (name, e'.publish) :=
  ⟨rfl, rfl, h.isClass, h.doclet, h.ofClass, h.ofTypedef⟩

/-- No run can tell twin catalogues apart. -/
theorem Catalogue.Twin.alike {shown : Set String} {k k' : Catalogue} (c : Config)
    (h : Catalogue.Twin shown k k') : Catalogue.Alike c shown k k' where
  addedTypes := h.addedTypes
  moduleMembers := List.rel_map (fun _ _ twin => twin.alike c) h.moduleMembers
  types := by
    refine h.types.imp ?_
    rintro ⟨name, e⟩ ⟨name', e'⟩ twin
    obtain rfl : name' = name := twin.key
    exact ⟨rfl, twin.isPublic, twin.isClass, fun isShown => twin.publish.alike c isShown⟩

/-! ## The outcome -/

/-- The outcome for expanded records that differ out of sight. -/
theorem generate_of_twins (c : Config) {ds ds' : List Doclet} {earlier earlier' : List Finding}
    (twins : List.Forall₂ (Doclet.Twin c
      (fun parent => (Catalogue.build c ds).1.IsTypedef (parent.getD ""))
      (Surface.publicNames (closedCatalogue c ds))) ds ds')
    (warned : Finding.countWarnings earlier' = Finding.countWarnings earlier) :
    let output := generate c ds earlier
    let output' := generate c ds' earlier'
    output'.declarations = output.declarations ∧ output'.publicTypes = output.publicTypes ∧
      output'.unresolved = output.unresolved ∧ output'.stats = output.stats := by
  obtain ⟨built, repeated⟩ := Catalogue.build_twin twins fun _ isTypedef => isTypedef
  exact generate_of_alike c (built.alike c) repeated warned

namespace Session

/-- **What is out of sight has no influence.** Two lists of records that are the same up to members
that are not public and have no typedef as their owner, and up to types that are not public after the
first run, give the same declarations, the same public types, the same unresolved names and the same
statistics. -/
theorem generate_twin (c : Config) (ds ds' : List Doclet)
    (twins :
      let k := (Catalogue.build c (({ config := c } : Session).addAll ds).doclets).1
      List.Forall₂ (Doclet.Twin c (fun parent => k.IsTypedef (parent.getD ""))
        (Surface.publicNames (Surface.close c k).1)) ds ds') :
    let output := (({ config := c } : Session).addAll ds).generate.2
    let output' := (({ config := c } : Session).addAll ds').generate.2
    output'.declarations = output.declarations ∧ output'.publicTypes = output.publicTypes ∧
      output'.unresolved = output.unresolved ∧ output'.stats = output.stats := by
  let session := ({ config := c } : Session).addAll ds
  let session' := ({ config := c } : Session).addAll ds'
  intro output output'
  have taken : session.doclets = ds.map fun d => (FunctionTypedef.expand d).1 :=
    doclets_addAll { config := c } ds
  have taken' : session'.doclets = ds'.map fun d => (FunctionTypedef.expand d).1 :=
    doclets_addAll { config := c } ds'
  have expanded : List.Forall₂ (Doclet.Twin c
      (fun parent => (Catalogue.build c session.doclets).1.IsTypedef (parent.getD ""))
      (Surface.publicNames (closedCatalogue c session.doclets)))
      session.doclets session'.doclets := by
    have both := List.rel_map (fun _ _ twin => Doclet.Twin.expand twin) twins
    rw [← taken, ← taken'] at both
    exact both
  have warned : Finding.countWarnings session'.findings =
      Finding.countWarnings session.findings := by
    have here : Finding.countWarnings session.findings = 0 :=
      countWarnings_addAll { config := c } ds
    have here' : Finding.countWarnings session'.findings = 0 :=
      countWarnings_addAll { config := c } ds'
    rw [here, here']
  rw [show output = _ from output_addAll c ds, show output' = _ from output_addAll c ds']
  exact generate_of_twins c expanded warned

/-- A class with a private field, and a private class. -/
def cacheRecords (fieldType description : String) : List Doclet :=
  [{ name := "Layer", longname := "ol.Layer", kind := .classType, memberof := some "ol" },
   { name := "cache_", longname := "ol.Layer#cache_", kind := .member, memberof := some "ol.Layer",
     access := some .privateAccess, type := some ⟨[fieldType]⟩ },
   { name := "Cache", longname := "ol.Cache", kind := .classType, memberof := some "ol",
     access := some .privateAccess, description := some description }]

/-- The private class stays hidden although the private field mentions it. -/
theorem generate_twin_cache :
    let before := cacheRecords "number" "Tiles."
    let after := cacheRecords "ol.Cache" "Tiles by key."
    let output := (({ config := {} } : Session).addAll before).generate.2
    let output' := (({ config := {} } : Session).addAll after).generate.2
    output'.declarations = output.declarations ∧ output'.publicTypes = output.publicTypes ∧
      output'.unresolved = output.unresolved ∧ output'.stats = output.stats := by
  refine generate_twin {} _ _ (.cons (.same _) (.cons ?field (.cons ?hiddenClass .nil)))
  case field => exact .member rfl rfl (by decide +kernel) rfl
  case hiddenClass => exact .type rfl (by decide +kernel) rfl

/-- A typedef without a longname, and a private member without an owner. -/
def namelessRecords (memberType : String) : List Doclet :=
  [{ name := "Options", longname := "", kind := .typedef },
   { name := "secret", longname := "secret", kind := .member, access := some .privateAccess,
     type := some ⟨[memberType]⟩ }]

/-- It does matter whether a typedef stands under the empty longname: a member without an owner is
written there, so not only the owners that are given must be no typedefs. -/
theorem generate_ne_of_nameless_typedef :
    let session := ({ config := {} } : Session).addAll (namelessRecords "number")
    let session' := ({ config := {} } : Session).addAll (namelessRecords "string")
    let k := (Catalogue.build {} session.doclets).1
    List.Forall₂ (Doclet.Twin {} (fun parent => ∃ name, parent = some name ∧ k.IsTypedef name)
        (Surface.publicNames (Surface.close {} k).1))
      (namelessRecords "number") (namelessRecords "string") ∧
    session'.generate.2.declarations ≠ session.generate.2.declarations := by
  intro session session' k
  refine ⟨.cons (.same _) (.cons (.member rfl rfl ?_ rfl) .nil), by decide +kernel⟩
  rintro ⟨name, given, -⟩
  cases given

end Session

end Ambient
