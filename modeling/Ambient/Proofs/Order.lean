import Mathlib.Data.List.Perm.Basic
import Mathlib.Data.Set.Basic
import Ambient.Proofs.Building
import Ambient.Proofs.Outline.Nesting
import Ambient.Proofs.Surface.Closure
/-!
# The order of the records makes no difference

Another order of the records changes the order of the types, of their members and of the names that
are looked up, and with it the number of passes. The closed surface is a least set, so it stays the
same, and everything that is counted or reported is taken from it.

## Main definitions

* `TypeEntry.Rearranged`, `Catalogue.Rearranged`: the same entries and members in another order.

## Main statements

* `Catalogue.build_rearranged`: records in another order make a rearranged catalogue.
* `Surface.Closed.rearranged`: a rearranged catalogue has the same closed sets.
* `Surface.run_rearranged`: closing leaves catalogues rearranged.
* `Session.generate_perm`: the outcome for records in another order.
-/

namespace Ambient

/-! ## Mentions, one declaration after another -/

namespace Declaration

/-- What a visit records comes after what was there before. -/
theorem visit_mentions (d : Declaration) (before : List Mention) :
    d.visit Mention.recorder before = before ++ d.mentions := by
  have alone : Recorder.Related Mention.recorder Mention.recorder Eq Eq :=
    { record := by
        rintro s t raw rfl
        rfl
      leave := by
        rintro s t s' t' placeholders rfl rfl
        rfl }
  have after : Recorder.Related Mention.recorder Mention.recorder Eq
      (fun s t => s = before ++ t) :=
    { record := by
        rintro s t raw rfl
        exact List.append_assoc ..
      leave := by
        rintro s t s' t' placeholders rfl rfl
        exact List.append_assoc .. }
  exact visit_related alone rfl after d (List.append_nil before).symm

theorem visitPublic_mentions (ds : List Declaration) (before : List Mention) :
    visitPublic Mention.recorder ds before =
      before ++ (ds.filter Declaration.isPublic).flatMap mentions := by
  induction ds generalizing before with
  | nil => exact (List.append_nil before).symm
  | cons d rest ih =>
    unfold visitPublic
    by_cases shown : d.isPublic = true
    · simp [shown, ih, visit_mentions]
    · simp [shown, ih]

theorem visitAll_mentions (ds : List Declaration) (before : List Mention) :
    visitAll Mention.recorder ds before = before ++ ds.flatMap mentions := by
  induction ds generalizing before with
  | nil => exact (List.append_nil before).symm
  | cons d rest ih =>
    unfold visitAll
    rw [ih, visit_mentions, List.flatMap_cons, List.append_assoc]

/-- A class mentions what it augments and what its constructor mentions, and then what its public
members do. -/
theorem mentions_classType (d : Doclet) (isPublic : Bool) (members : List Declaration) :
    (classType d isPublic members).mentions =
      (visitConstructor Mention.recorder d (Mention.recorder.recordAll d.augments []) ++
        (members.filter Declaration.isPublic).flatMap mentions).map
          (Mention.within d.placeholders) := by
  show [] ++ (visitPublic Mention.recorder members _).map _ = _
  rw [visitPublic_mentions]
  rfl

/-- A typedef with members mentions what they do. -/
theorem mentions_typedef (d : Doclet) (isPublic : Bool) {members : List Declaration}
    (some : members ≠ []) :
    (typedef d isPublic members).mentions =
      (members.flatMap mentions).map (Mention.within d.placeholders) := by
  cases members with
  | nil => exact absurd rfl some
  | cons first rest =>
    show [] ++ (visitAll Mention.recorder rest (first.visit Mention.recorder [])).map _ = _
    rw [visitAll_mentions]
    rfl

/-- About a class, there is to report what there is about the class itself and its constructor, and
what there is about its public members. -/
theorem findings_classType (c : Config) (d : Doclet) (isPublic : Bool)
    (members : List Declaration) :
    ((classType d isPublic members).render c 0).findings c =
      (d.classDocs c).findings c ++ ((d.classHeader c 0).flatMap (Piece.findings c) ++
        ((d.surplusParents ++ ((constructor? d).map (Constructor.render c)).getD {}).findings c ++
          (members.filter Declaration.isPublic).flatMap fun m => (m.render c 0).findings c)) := by
  rw [render, Rendering.findings_append, Rendering.findings_block, Rendering.findings_append,
    findings_renderPublic]

/-- About a typedef with members, there is to report what there is about its description and about
them. -/
theorem findings_typedef (c : Config) (d : Doclet) (isPublic : Bool) {members : List Declaration}
    (some : members ≠ []) :
    ((typedef d isPublic members).render c 0).findings c =
      (docs c d d.description "type" []).findings c ++
        members.flatMap fun m => (m.render c 0).findings c := by
  cases members with
  | nil => exact absurd rfl some
  | cons first rest =>
    rw [render, Rendering.findings_append, Rendering.findings_block, Rendering.findings_append,
      findings_renderAll, findings_render, List.flatMap_cons]
    rfl

/-! ## What is read off member by member -/

/-- What is read off a class or a typedef is the same up to order if its members come in another
order. -/
structure Memberwise {β : Type} (view : Declaration → List β) : Prop where
  classType : ∀ d isPublic {members members' : List Declaration}, members.Perm members' →
    (view (.classType d isPublic members)).Perm (view (.classType d isPublic members'))
  typedef : ∀ d isPublic {members members' : List Declaration}, members.Perm members' →
    (view (.typedef d isPublic members)).Perm (view (.typedef d isPublic members'))

/-- No members are left without members in any order. -/
theorem eq_or_ne_nil_of_perm {members members' : List Declaration} (h : members.Perm members') :
    (members = [] ∧ members' = []) ∨ (members ≠ [] ∧ members' ≠ []) := by
  by_cases none : members = []
  · subst none
    exact Or.inl ⟨rfl, h.nil_eq.symm⟩
  · refine Or.inr ⟨none, fun none' => none ?_⟩
    subst none'
    exact h.eq_nil

theorem memberwise_mentions : Memberwise mentions where
  classType := by
    intro d isPublic members members' h
    rw [mentions_classType, mentions_classType]
    exact (((h.filter _).flatMap_right _).append_left _).map _
  typedef := by
    intro d isPublic members members' h
    rcases eq_or_ne_nil_of_perm h with ⟨rfl, rfl⟩ | ⟨some, some'⟩
    · exact List.Perm.refl _
    · rw [mentions_typedef d isPublic some, mentions_typedef d isPublic some']
      exact (h.flatMap_right _).map _

theorem memberwise_findings (c : Config) : Memberwise fun d => (d.render c 0).findings c where
  classType := by
    intro d isPublic members members' h
    show ((classType d isPublic members).render c 0).findings c |>.Perm _
    rw [findings_classType, findings_classType]
    exact ((((h.filter _).flatMap_right _).append_left _).append_left _).append_left _
  typedef := by
    intro d isPublic members members' h
    rcases eq_or_ne_nil_of_perm h with ⟨rfl, rfl⟩ | ⟨some, some'⟩
    · exact List.Perm.refl _
    · show ((typedef d isPublic members).render c 0).findings c |>.Perm _
      rw [findings_typedef c d isPublic some, findings_typedef c d isPublic some']
      exact (h.flatMap_right _).append_left _

theorem memberwise_listing : Memberwise fun d => (PublicType.ofDeclaration? d).toList where
  classType _ _ _ _ _ := List.Perm.refl _
  typedef _ _ _ _ _ := List.Perm.refl _

end Declaration

/-! ## Rearranged entries -/

/-- The same entry with its members in another order. -/
structure TypeEntry.Rearranged (e e' : TypeEntry) : Prop where
  doclet : e.doclet = e'.doclet
  isPublic : e.isPublic = e'.isPublic
  members : e.members.Perm e'.members

namespace TypeEntry.Rearranged

variable {e e' : TypeEntry} (h : e.Rearranged e')

include h

theorem symm : e'.Rearranged e := ⟨h.doclet.symm, h.isPublic.symm, h.members.symm⟩

theorem isClass : e.isClass = e'.isClass := by
  unfold TypeEntry.isClass
  rw [h.doclet]

/-- What is read off the declaration is the same up to order. -/
theorem view {β : Type} {view : Declaration → List β} (memberwise : Declaration.Memberwise view) :
    (view e.toDeclaration).Perm (view e'.toDeclaration) := by
  have members := h.members.map Declaration.member
  unfold toDeclaration
  rw [h.isClass, h.doclet, h.isPublic]
  by_cases isClass : e'.isClass = true
  · rw [if_pos isClass, if_pos isClass]
    exact memberwise.classType _ _ members
  · rw [if_neg isClass, if_neg isClass]
    exact memberwise.typedef _ _ members

/-- A rearranged entry mentions the same names. -/
theorem mem_recorded (c : Config) {name : String} :
    name ∈ e.toDeclaration.recorded c ↔ name ∈ e'.toDeclaration.recorded c := by
  rw [Declaration.mem_recorded, Declaration.mem_recorded]
  exact ((h.view Declaration.memberwise_mentions).flatMap_right _).mem_iff

end TypeEntry.Rearranged

/-! ## Rearranged catalogues -/

namespace Catalogue

/-- The same entries and module members, in another order and with their members in another
order. -/
structure Rearranged (k k' : Catalogue) : Prop where
  addedTypes : k.addedTypes = k'.addedTypes
  moduleMembers : k.moduleMembers.Perm k'.moduleMembers
  keys : k.types.keys.Perm k'.types.keys
  entries : ∀ name e e', k.resolve? name = some e → k'.resolve? name = some e' → e.Rearranged e'

namespace Rearranged

variable {k k' : Catalogue} (h : k.Rearranged k')

include h

theorem symm : k'.Rearranged k where
  addedTypes := h.addedTypes.symm
  moduleMembers := h.moduleMembers.symm
  keys := h.keys.symm
  entries name e e' found found' := (h.entries name e' e found' found).symm

theorem resolve?_eq_none_iff {name : String} : k.resolve? name = none ↔ k'.resolve? name = none := by
  unfold Catalogue.resolve?
  rw [OrderedMap.get?_eq_none_iff, OrderedMap.get?_eq_none_iff, h.keys.mem_iff]

/-- Every entry is there in the other catalogue, too. -/
theorem counterpart {name : String} {e : TypeEntry} (found : k.resolve? name = some e) :
    ∃ e', k'.resolve? name = some e' ∧ e.Rearranged e' := by
  cases found' : k'.resolve? name with
  | none =>
    rw [h.resolve?_eq_none_iff.2 found'] at found
    cases found
  | some e' => exact ⟨e', rfl, h.entries name e e' found found'⟩

/-- What is read off the entries is the same up to order. -/
theorem flatMap_values {β : Type} {f : TypeEntry → List β}
    (respects : ∀ e e', e.Rearranged e' → (f e).Perm (f e')) :
    (k.types.values.flatMap f).Perm (k'.types.values.flatMap f) := by
  rw [OrderedMap.flatMap_values, OrderedMap.flatMap_values]
  -- Entries are compared under their names, not at their positions.
  refine List.Perm.flatMap h.keys fun name _ => ?_
  show ((k.resolve? name).elim [] f).Perm ((k'.resolve? name).elim [] f)
  cases found : k.resolve? name with
  | none => rw [h.resolve?_eq_none_iff.1 found]
  | some e =>
    obtain ⟨e', found', rearranged⟩ := h.counterpart found
    rw [found']
    exact respects e e' rearranged

/-- What is read off the declarations that are written is the same up to order. -/
theorem flatMap_emitted {β : Type} {view : Declaration → List β}
    (memberwise : Declaration.Memberwise view) :
    (k.emitted.flatMap view).Perm (k'.emitted.flatMap view) := by
  have types : (((k.types.values.filter TypeEntry.isPublic).map
      TypeEntry.toDeclaration).flatMap view).Perm
        (((k'.types.values.filter TypeEntry.isPublic).map
          TypeEntry.toDeclaration).flatMap view) := by
    rw [List.flatMap_map, List.flatMap_map, Lists.flatMap_filter, Lists.flatMap_filter]
    refine h.flatMap_values fun e e' rearranged => ?_
    rw [rearranged.isPublic]
    split
    · exact rearranged.view memberwise
    · exact List.Perm.refl _
  have members := ((h.moduleMembers.map Declaration.member).filter
    Declaration.isPublic).flatMap_right view
  have added : k.addedDeclarations = k'.addedDeclarations := by
    unfold addedDeclarations
    rw [h.addedTypes]
  refine ((emitted_perm k).flatMap_right view).trans
    (List.Perm.trans ?_ ((emitted_perm k').flatMap_right view).symm)
  rw [List.flatMap_append, List.flatMap_append, List.flatMap_append, List.flatMap_append, added]
  exact (types.append members).append_right _

theorem publicTypes : k.publicTypes.Perm k'.publicTypes := by
  unfold Catalogue.publicTypes
  rw [List.filterMap_eq_flatMap_toList, List.filterMap_eq_flatMap_toList]
  exact h.flatMap_emitted Declaration.memberwise_listing

/-- There are as many classes, and as many other types. -/
theorem isClass_perm :
    (k.types.values.map TypeEntry.isClass).Perm (k'.types.values.map TypeEntry.isClass) := by
  rw [List.map_eq_flatMap, List.map_eq_flatMap]
  refine h.flatMap_values fun e e' rearranged => ?_
  rw [rearranged.isClass]

theorem length_classes : k.classes.length = k'.classes.length := by
  rw [length_classes_eq, length_classes_eq]
  exact h.isClass_perm.countP_eq id

theorem length_typedefs : k.typedefs.length = k'.typedefs.length := by
  rw [length_typedefs_eq, length_typedefs_eq]
  exact h.isClass_perm.countP_eq _

end Rearranged

/-! ## Records in another order -/

section Build

variable {c : Config} {ds ds' : List Doclet}

theorem makesMemberAmong_perm (same : ds.Perm ds') :
    makesMemberAmong c ds = makesMemberAmong c ds' := by
  have documented := (same.filter fun d => d.kind.makesMember && !d.undocumented).map
    Doclet.longname
  funext d
  unfold makesMemberAmong documentedMembers
  rw [documented.contains_eq]

theorem typeDoclets_perm (same : ds.Perm ds') : (typeDoclets c ds).Perm (typeDoclets c ds') :=
  same.filter _

theorem memberDoclets_perm (distinct : DistinctLongnames ds) (same : ds.Perm ds') :
    (memberDoclets c ds).Perm (memberDoclets c ds') := by
  rw [memberDoclets_of_distinct c distinct, memberDoclets_of_distinct c (distinct.perm same),
    makesMemberAmong_perm same]
  exact same.filter _

/-- **Records in another order make a rearranged catalogue.** -/
theorem build_rearranged (c : Config) (distinct : DistinctLongnames ds) (same : ds.Perm ds') :
    (build c ds).1.Rearranged (build c ds').1 := by
  have types := typeDoclets_perm (c := c) same
  have members := memberDoclets_perm (c := c) distinct same
  have keys : ∀ name, name ∈ (build c ds).1.types.keys ↔ name ∈ (build c ds').1.types.keys := by
    intro name
    simp only [mem_keys_build, types.mem_iff]
  refine ⟨?_, ?_, ?_, ?_⟩
  · rw [addedTypes_build, addedTypes_build]
  · rw [moduleMembers_build, moduleMembers_build]
    simp only [keys]
    exact (members.filter _).map _
  · exact (List.perm_ext_iff_of_nodup (build c ds).1.types.nodup_keys
      (build c ds').1.types.nodup_keys).2 keys
  · intro name e e' found found'
    rw [resolve?_build, Option.map_eq_some_iff] at found found'
    obtain ⟨d, first, rfl⟩ := found
    obtain ⟨d', first', rfl⟩ := found'
    have here : d.longname = d'.longname :=
      (longname_of_find? first).trans (longname_of_find? first').symm
    have one : d = d' := List.inj_on_of_nodup_map (typeDoclets_distinct c distinct)
      (List.mem_of_find?_eq_some first) (types.mem_iff.2 (List.mem_of_find?_eq_some first')) here
    subst one
    exact ⟨rfl, rfl, ((members.filter _).map _).append_left _⟩

end Build

end Catalogue

/-! ## Closing rearranged catalogues -/

namespace Surface

variable {c : Config} {k k' : Catalogue} {S : Set String} {name : String}

theorem publicNames_rearranged (h : k.Rearranged k') (keyed : k.KeyedByLongname)
    (keyed' : k'.KeyedByLongname) (mem : name ∈ publicNames k) : name ∈ publicNames k' := by
  obtain ⟨e, found, shown⟩ := (mem_publicNames keyed).1 mem
  obtain ⟨e', found', rearranged⟩ := h.counterpart found
  exact (mem_publicNames keyed').2 ⟨e', found', rearranged.isPublic ▸ shown⟩

/-- A rearranged catalogue mentions the same names from a set. -/
theorem MentionedFrom.rearranged (mentioned : MentionedFrom c k S name) (h : k.Rearranged k')
    (keyed : k.KeyedByLongname) : MentionedFrom c k' S name := by
  cases mentioned with
  | @type e mem inside recorded =>
    obtain ⟨e', found', rearranged⟩ := h.counterpart (keyed.resolve? mem)
    rw [rearranged.mem_recorded] at recorded
    exact .type (OrderedMap.mem_values_iff.2 ⟨_, found'⟩) (rearranged.doclet ▸ inside) recorded
  | moduleMember mem shown recorded =>
    exact .moduleMember (h.moduleMembers.mem_iff.1 mem) shown recorded
  | addedType mem recorded => exact .addedType (h.addedTypes ▸ mem) recorded

/-- **A rearranged catalogue has the same closed sets.** -/
theorem Closed.rearranged (closed : Closed c k S) (h : k.Rearranged k')
    (keyed : k.KeyedByLongname) (keyed' : k'.KeyedByLongname) : Closed c k' S where
  own _ mem := closed.own (publicNames_rearranged h.symm keyed' keyed mem)
  configured := by
    intro name configured e' found'
    obtain ⟨e, found, rearranged⟩ := h.symm.counterpart found'
    rw [rearranged.doclet]
    exact closed.configured name configured e found
  mentioned := by
    intro e' mem' mentioned
    obtain ⟨e, found, rearranged⟩ := h.symm.counterpart (keyed'.resolve? mem')
    have mentioned := mentioned.rearranged h.symm keyed'
    rw [rearranged.doclet] at mentioned ⊢
    exact closed.mentioned e (OrderedMap.mem_values_iff.2 ⟨_, found⟩) mentioned

/-- What is unresolved after the last pass: what is mentioned and stands for nothing. -/
theorem mem_unresolved_run (c : Config) (keyed : k.KeyedByLongname) :
    name ∈ (run c k).1.unresolved.names ↔
      MentionedFrom c k (publicNames (run c k).1.catalogue) name ∧ k.resolve? name = none ∧
        name ∉ k.addedTypes.keys := by
  have final := run_invariant c keyed
  refine ⟨final.unresolved name, ?_⟩
  rintro ⟨mentioned, unknown, notAdded⟩
  rcases run_settled keyed mentioned with isPublic | ⟨-, added | unresolved⟩
  · obtain ⟨e, found, -⟩ :=
      (mem_publicNames (final.onlyPublishes.keyedByLongname keyed)).1 isPublic
    rw [final.onlyPublishes.resolve?_eq_none_iff.2 unknown] at found
    cases found
  · exact absurd added notAdded
  · exact unresolved

section Run

variable (c) (h : k.Rearranged k') (keyed : k.KeyedByLongname) (keyed' : k'.KeyedByLongname)

include h keyed keyed'

theorem publicNames_run_subset :
    publicNames (run c k).1.catalogue ⊆ publicNames (run c k').1.catalogue :=
  (run_invariant c keyed).needed _ ((run_closed c keyed').rearranged h.symm keyed' keyed)

theorem publicNames_run :
    publicNames (run c k).1.catalogue = publicNames (run c k').1.catalogue :=
  Set.Subset.antisymm (publicNames_run_subset c h keyed keyed')
    (publicNames_run_subset c h.symm keyed' keyed)

/-- **Closing leaves catalogues rearranged.** -/
theorem run_rearranged : (run c k).1.catalogue.Rearranged (run c k').1.catalogue := by
  have published := (run_invariant c keyed).onlyPublishes
  have published' := (run_invariant c keyed').onlyPublishes
  have keyedNow := published.keyedByLongname keyed
  have keyedNow' := published'.keyedByLongname keyed'
  have shown := publicNames_run c h keyed keyed'
  refine ⟨?_, ?_, ?_, ?_⟩
  · rw [published.addedTypes, published'.addedTypes, h.addedTypes]
  · rw [published.moduleMembers, published'.moduleMembers]
    exact h.moduleMembers
  · rw [published.keys, published'.keys]
    exact h.keys
  · intro name e e' found found'
    obtain ⟨before, was, raised⟩ := published.raised_back found
    obtain ⟨before', was', raised'⟩ := published'.raised_back found'
    have start := h.entries name before before' was was'
    refine ⟨?_, ?_, ?_⟩
    · rw [raised.doclet, raised'.doclet, start.doclet]
    · -- The flags are those of the least closed set, which is the same for both.
      have flag : ∀ {k : Catalogue} {e : TypeEntry}, k.KeyedByLongname →
          k.resolve? name = some e → (e.isPublic = true ↔ name ∈ publicNames k) := by
        intro k e keyed found
        rw [mem_publicNames keyed]
        simp [found]
      rw [Bool.eq_iff_iff, flag keyedNow found, flag keyedNow' found', shown]
    · rw [raised.members, raised'.members]
      exact start.members

theorem hoisted_run : (run c k).1.hoisted.Perm (run c k').1.hoisted := by
  have final := run_invariant c keyed
  have final' := run_invariant c keyed'
  -- The order in which types become public differs, so only which ones do is compared.
  refine (List.perm_ext_iff_of_nodup final.hoisted_nodup final'.hoisted_nodup).2 fun name => ?_
  have before : name ∈ publicNames k ↔ name ∈ publicNames k' :=
    ⟨publicNames_rearranged h keyed keyed', publicNames_rearranged h.symm keyed' keyed⟩
  rw [final.mem_hoisted, final'.mem_hoisted, publicNames_run c h keyed keyed', before]

theorem unresolved_run : (run c k).1.unresolved.names.Perm (run c k').1.unresolved.names := by
  refine (List.perm_ext_iff_of_nodup (run c k).1.unresolved.nodup
    (run c k').1.unresolved.nodup).2 fun name => ?_
  have mentioned : MentionedFrom c k (publicNames (run c k).1.catalogue) name ↔
      MentionedFrom c k' (publicNames (run c k').1.catalogue) name := by
    rw [publicNames_run c h keyed keyed']
    exact ⟨fun m => m.rearranged h keyed, fun m => m.rearranged h.symm keyed'⟩
  rw [mem_unresolved_run c keyed, mem_unresolved_run c keyed', mentioned,
    h.resolve?_eq_none_iff, h.addedTypes]

theorem findings_run : (run c k).1.findings.Perm (run c k').1.findings := by
  have unknown : unknownEntries k c.makePublic = unknownEntries k' c.makePublic := by
    unfold unknownEntries
    congr 1
    funext name
    rw [Bool.eq_iff_iff, Option.isNone_iff_eq_none, Option.isNone_iff_eq_none,
      h.resolve?_eq_none_iff]
  rw [(run_invariant c keyed).findings, (run_invariant c keyed').findings, unknown]
  exact ((unresolved_run c h keyed keyed').map _).append_left _

end Run

end Surface

/-! ## The outcome -/

/-- There is to report what there is about each declaration that is written. -/
theorem Outline.findings_ofDeclarations (c : Config) (ds : List Declaration) :
    (((ofDeclarations ds).render c 0).findings c).Perm
      (ds.flatMap fun d => (d.render c 0).findings c) := by
  rw [findings_render]
  exact (contents_ofDeclarations ds).flatMap_right _

/-- The outcome for expanded records in another order. -/
theorem generate_of_perm (c : Config) {ds ds' : List Doclet} {earlier earlier' : List Finding}
    (distinct : DistinctLongnames ds) (records : ds.Perm ds') (found : earlier.Perm earlier') :
    let output := generate c ds earlier
    let output' := generate c ds' earlier'
    output.publicTypes.Perm output'.publicTypes ∧
    output.unresolved.Perm output'.unresolved ∧
    { output.stats with passes := 0 } = { output'.stats with passes := 0 } ∧
    output.findings.Perm output'.findings := by
  intro output output'
  have keyed := Catalogue.keyed_build c ds
  have keyed' := Catalogue.keyed_build c ds'
  have rearranged := Catalogue.build_rearranged c distinct records
  have closed : (closedCatalogue c ds).Rearranged (closedCatalogue c ds') :=
    Surface.run_rearranged c rearranged keyed keyed'
  have hoisted := Surface.hoisted_run c rearranged keyed keyed'
  have unresolved := Surface.unresolved_run c rearranged keyed keyed'
  have reported := Surface.findings_run c rearranged keyed keyed'
  have rendered := ((Outline.findings_ofDeclarations c _).trans
    (closed.flatMap_emitted (Declaration.memberwise_findings c))).trans
      (Outline.findings_ofDeclarations c _).symm
  have findings : output.findings.Perm output'.findings := by
    rw [findings_generate, findings_generate, Catalogue.findings_build c ds distinct,
      Catalogue.findings_build c ds' (distinct.perm records)]
    exact ((found.append_right []).append reported).append rendered
  have warnings : Finding.countWarnings output.findings = Finding.countWarnings output'.findings :=
    findings.countP_eq _
  refine ⟨?_, ?_, ?_, findings⟩
  · rw [publicTypes_generate, publicTypes_generate]
    exact closed.publicTypes
  · rw [unresolved_generate, unresolved_generate]
    exact unresolved
  · rw [stats_generate, stats_generate, closed.length_classes, closed.length_typedefs,
      closed.moduleMembers.length_eq, closed.addedTypes, closed.publicTypes.length_eq,
      hoisted.length_eq, unresolved.length_eq, warnings]

namespace Session

/-- **The order of the records makes no difference.** If no two types and no two members have the
same longname, then records in another order give the same public types, the same names that were
made public, the same unresolved names and the same findings, each in some order, and the same
statistics except for the number of passes. -/
theorem generate_perm (c : Config) (ds ds' : List Doclet) (same : ds.Perm ds')
    (distinct : DistinctLongnames ds) :
    let session := ({ config := c } : Session).addAll ds
    let session' := ({ config := c } : Session).addAll ds'
    let output := session.generate.2
    let output' := session'.generate.2
    let report := (Surface.close c (Catalogue.build c session.doclets).1).2
    let report' := (Surface.close c (Catalogue.build c session'.doclets).1).2
    output.publicTypes.Perm output'.publicTypes ∧
    report.hoisted.Perm report'.hoisted ∧
    output.unresolved.Perm output'.unresolved ∧
    { output.stats with passes := 0 } = { output'.stats with passes := 0 } ∧
    output.findings.Perm output'.findings := by
  intro session session' output output' report report'
  have taken : session.doclets = ds.map fun d => (FunctionTypedef.expand d).1 :=
    doclets_addAll { config := c } ds
  have taken' : session'.doclets = ds'.map fun d => (FunctionTypedef.expand d).1 :=
    doclets_addAll { config := c } ds'
  have records : session.doclets.Perm session'.doclets := by
    rw [taken, taken']
    exact same.map _
  have distinctNow : DistinctLongnames session.doclets := by
    rw [taken]
    exact distinct.expanded
  have found : session.findings.Perm session'.findings := by
    have here : session.findings = _ := findings_addAll { config := c } ds
    have here' : session'.findings = _ := findings_addAll { config := c } ds'
    rw [here, here']
    exact (same.flatMap_right _).append_left _
  have hoisted : report.hoisted.Perm report'.hoisted :=
    Surface.hoisted_run c (Catalogue.build_rearranged c distinctNow records)
      (Catalogue.keyed_build c _) (Catalogue.keyed_build c _)
  obtain ⟨publicTypes, unresolved, stats, findings⟩ := generate_of_perm c distinctNow records found
  rw [show output = _ from output_addAll c ds, show output' = _ from output_addAll c ds']
  exact ⟨publicTypes, hoisted, unresolved, stats, findings⟩

/-- A hidden class, a class, and a method of the second that mentions the first. -/
def layerRecords : List Doclet :=
  [{ name := "Source", longname := "ol.Source", kind := .classType, memberof := some "ol",
     access := some .privateAccess },
   { name := "Layer", longname := "ol.Layer", kind := .classType, memberof := some "ol" },
   { name := "getSource", longname := "ol.Layer#getSource", kind := .function,
     memberof := some "ol.Layer", returns := [{ type := some ⟨["ol.Source"]⟩ }] }]

theorem generate_perm_layers :
    layerRecords.Perm layerRecords.reverse ∧ DistinctLongnames layerRecords ∧
    let output := (({ config := {} } : Session).addAll layerRecords).generate.2
    let output' := (({ config := {} } : Session).addAll layerRecords.reverse).generate.2
    output.publicTypes.Perm output'.publicTypes ∧
    { output.stats with passes := 0 } = { output'.stats with passes := 0 } ∧
    output.findings.Perm output'.findings := by
  have same : layerRecords.Perm layerRecords.reverse := (List.reverse_perm layerRecords).symm
  have distinct : DistinctLongnames layerRecords := ⟨by decide, by decide⟩
  obtain ⟨publicTypes, -, -, stats, findings⟩ := generate_perm {} _ _ same distinct
  exact ⟨same, distinct, publicTypes, stats, findings⟩

end Session

end Ambient
