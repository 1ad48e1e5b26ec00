import Ambient.Session
import Ambient.Proofs.Building
import Ambient.Proofs.Outline.Arrangement
import Ambient.Proofs.Representation
import Ambient.Proofs.Surface.Passes
/-!
# The listing of the public types

The types of the public surface are listed from the catalogue, the text is written from the tree of
modules, and the counts are taken along the way. All three agree.

## Main definitions

* `TypeEntry.listing`, `AddedType.listing`: how a type of the catalogue is listed.

## Main statements

* `Catalogue.publicTypes_perm`: the public classes and typedefs are listed, and the added types.
* `Catalogue.nodup_publicTypes`: no type is listed twice.
* `generate_publicTypes`: what is listed is what is in the tree, and how much there is of it.
-/

namespace Ambient

/-! ## What is listed -/

/-- How a class or typedef is listed. -/
def TypeEntry.listing (e : TypeEntry) : PublicType where
  kind := if e.isClass then .classType else .typedef
  name := e.doclet.longname

/-- How a type that the configuration adds is listed. -/
def AddedType.listing (t : AddedType) : PublicType where
  kind := match t with
    | .interface _ => .interface
    | .typeAlias _ => .typeAlias
  name := t.fullName

theorem TypeEntry.ofDeclaration?_toDeclaration (e : TypeEntry) :
    PublicType.ofDeclaration? e.toDeclaration = some e.listing := by
  unfold TypeEntry.toDeclaration TypeEntry.listing
  cases e.isClass <;> rfl

theorem AddedType.ofDeclaration?_toDeclaration (t : AddedType) :
    PublicType.ofDeclaration? t.toDeclaration = some t.listing := by
  cases t <;> rfl

theorem PublicType.isSome_ofDeclaration? (d : Declaration) :
    (ofDeclaration? d).isSome = d.isType := by
  cases d <;> rfl

/-- The types among some declarations are listed, each of them once. -/
theorem PublicType.map_some_filterMap (ds : List Declaration) :
    (ds.filterMap ofDeclaration?).map some =
      (ds.filter Declaration.isType).map ofDeclaration? := by
  rw [List.map_filterMap_some_eq_filter_map_isSome, List.filter_map]
  simp only [Function.comp_def, isSome_ofDeclaration?]

namespace Catalogue

variable {k : Catalogue}

/-- Up to order, the public classes and typedefs are listed, and the types that the configuration
adds. -/
theorem publicTypes_perm (k : Catalogue) :
    k.publicTypes.Perm ((k.types.values.filter TypeEntry.isPublic).map TypeEntry.listing ++
      k.addedTypes.values.map AddedType.listing) := by
  have types : ∀ es : List TypeEntry, (es.map TypeEntry.toDeclaration).filterMap
      PublicType.ofDeclaration? = es.map TypeEntry.listing := by
    intro es
    rw [List.filterMap_map, List.filterMap_congr fun e _ => e.ofDeclaration?_toDeclaration]
    exact congrFun List.filterMap_eq_map es
  have added : k.addedDeclarations.filterMap PublicType.ofDeclaration? =
      k.addedTypes.values.map AddedType.listing := by
    unfold addedDeclarations
    rw [List.filterMap_map, List.filterMap_congr fun t _ => t.ofDeclaration?_toDeclaration]
    exact congrFun List.filterMap_eq_map _
  have members : ((k.moduleMembers.map Declaration.member).filter
      Declaration.isPublic).filterMap PublicType.ofDeclaration? = [] := by
    rw [List.filterMap_eq_nil_iff]
    intro d mem
    obtain ⟨m, -, rfl⟩ := List.mem_map.1 (List.mem_filter.1 mem).1
    rfl
  have listed := k.emitted_perm.filterMap PublicType.ofDeclaration?
  rw [List.filterMap_append, List.filterMap_append, types, members, added, List.append_nil]
    at listed
  exact listed

/-- As many types are listed as are public or added. -/
theorem length_publicTypes (k : Catalogue) :
    k.publicTypes.length = k.types.values.countP TypeEntry.isPublic + k.addedTypes.size := by
  rw [k.publicTypes_perm.length_eq, List.length_append, List.length_map, List.length_map,
    ← List.countP_eq_length_filter]
  simp [OrderedMap.values, OrderedMap.size]

/-- No type is listed twice, if each stands under its own name. -/
theorem nodup_publicTypes (keyed : k.KeyedByLongname)
    (named : ∀ name t, k.addedTypes.get? name = some t → t.fullName = name) :
    k.publicTypes.Nodup := by
  rw [k.publicTypes_perm.nodup_iff, List.nodup_append]
  refine ⟨?_, ?_, ?_⟩
  · -- Listings of classes and typedefs differ by their longnames already.
    apply List.Nodup.of_map PublicType.name
    have names : (k.types.values.map fun e => e.doclet.longname) = k.types.keys :=
      OrderedMap.map_values_eq_keys keyed
    rw [List.map_map]
    refine List.Nodup.sublist (List.filter_sublist.map _) ?_
    show (k.types.values.map fun e => e.doclet.longname).Nodup
    rw [names]
    exact k.types.nodup_keys
  · apply List.Nodup.of_map PublicType.name
    have names : k.addedTypes.values.map AddedType.fullName = k.addedTypes.keys :=
      OrderedMap.map_values_eq_keys named
    rw [List.map_map]
    show (k.addedTypes.values.map AddedType.fullName).Nodup
    rw [names]
    exact k.addedTypes.nodup_keys
  · intro listed type other added
    obtain ⟨e, -, rfl⟩ := List.mem_map.1 type
    obtain ⟨t, -, rfl⟩ := List.mem_map.1 added
    -- The two are of different kinds, whatever their names are.
    intro same
    have kinds := congrArg PublicType.kind same
    unfold TypeEntry.listing AddedType.listing at kinds
    cases t <;> split at kinds <;> cases kinds

/-- What a record says of itself decides at first which types are public. -/
theorem countP_isPublic_build (c : Config) (ds : List Doclet) :
    (build c ds).1.types.values.countP TypeEntry.isPublic =
      (build c ds).1.types.values.countP fun e => e.doclet.isPublicByItself c.publicAnnotation := by
  refine List.countP_congr fun e mem => ?_
  obtain ⟨name, found⟩ := OrderedMap.mem_values_iff.1 mem
  rw [(standsFor_of_resolve? found).1.isPublic]

end Catalogue

/-! ## What is listed and what is written -/

/-- **What is listed is what is in the tree.** The declarations that are written are those of a tree
of modules. The list of public types has one listing for each type of that tree, and no other ones;
no listing occurs twice. Their number is that of the types whose own records are public, of those
that were made public, and of those that the configuration adds. -/
theorem generate_publicTypes (c : Config) (ds : List Doclet) (earlier : List Finding) :
    let tree := Outline.ofDeclarations (closedCatalogue c ds).emitted
    let output := generate c ds earlier
    output.declarations = (Page.run {} ((tree.render c 0).steps c)).text ∧
    (output.publicTypes.map some).Perm
      ((tree.contents.filter Declaration.isType).map PublicType.ofDeclaration?) ∧
    output.publicTypes.Nodup ∧
    output.stats.publicTypes =
      ((Catalogue.build c ds).1.types.values.countP fun e =>
        e.doclet.isPublicByItself c.publicAnnotation) +
        output.stats.hoisted + output.stats.addedTypes := by
  intro tree output
  have keyed := Catalogue.keyed_build c ds
  have published : (Catalogue.build c ds).1.OnlyPublishes (closedCatalogue c ds) :=
    (Surface.run_invariant c keyed).onlyPublishes
  refine ⟨declarations_generate c ds earlier, ?_, ?_, ?_⟩
  · rw [publicTypes_generate]
    unfold Catalogue.publicTypes
    rw [PublicType.map_some_filterMap]
    exact ((Outline.contents_ofDeclarations _).symm.filter _).map _
  · rw [publicTypes_generate]
    refine Catalogue.nodup_publicTypes (published.keyedByLongname keyed) fun name t found => ?_
    rw [published.addedTypes, Catalogue.get?_addedTypes_build] at found
    simpa using List.find?_some found
  · have raised := Surface.countP_isPublic_close c keyed
    rw [Catalogue.countP_isPublic_build] at raised
    have stats : output.stats = _ := stats_generate c ds earlier
    simp only [stats, Catalogue.length_publicTypes]
    exact congrArg (· + (closedCatalogue c ds).addedTypes.size) raised

end Ambient
