import Ambient.Proofs.Alike.Records
import Ambient.Proofs.Written
/-!
# Members that the configuration replaces

The text of a replaced member is that of the configuration, whatever its record says. Its signature
is visited all the same. So two lists of records that differ in the signatures of replaced members
are written alike as far as the same types are public, and which types are public is a matter of the
names in those signatures.

## Main definitions

* `Doclet.Replaced`: records at the same position, which differ in a signature that is replaced.
* `Doclet.mentionedNames`: the names that the member of a record mentions.
* `Catalogue.Writes`: the member of a record is written.
* `Member.Pair`, `TypeEntry.Pair`: what becomes of the records.

## Main statements

* `Member.Pair.sameText`: a replaced member is written as the configuration says.
* `TypeEntry.Pair.sameText`: the types that own replaced members have the same text.
* `Session.generate_replaced`: the outcome for two lists of records.
* `Session.generate_ne_of_replaced_signature`: a signature that is replaced makes a type public.
-/

namespace Ambient

namespace Doclet

/-- The second record differs from the first in the signature of a member at most. -/
def AgreesInSignature (d d' : Doclet) : Prop :=
  d' = { d with
    type := d'.type, params := d'.params, returns := d'.returns, description := d'.description }

/-- Two records at the same position of two lists. They are the same, or they make members that the
configuration replaces and differ in their signatures at most. -/
inductive Replaced (c : Config) : Doclet → Doclet → Prop
  | same (d : Doclet) : Replaced c d d
  | member {d d' : Doclet} (makes : d.kind.makesMember = true)
      (replaced : c.memberReplacements.contains d.longname = true)
      (agrees : d.AgreesInSignature d') : Replaced c d d'

/-- The names that the member of a record mentions. -/
def mentionedNames (c : Config) (d : Doclet) : List String :=
  (Declaration.member (.ofDoclet (Catalogue.memberForm d) .moduleLevel d c)).recorded c

namespace Replaced

variable {c : Config} {d d' : Doclet}

theorem samePlace (h : Replaced c d d') : d.SamePlace d' := by
  cases h with
  | same => exact SamePlace.refl d
  | member _ _ agrees =>
    unfold AgreesInSignature at agrees
    rw [agrees]
    refine ⟨rfl, rfl, rfl, rfl, rfl, rfl, ?_⟩
    intro annotation
    cases annotation <;> rfl

theorem eq_or_replaced (h : Replaced c d d') :
    d' = d ∨ (c.memberReplacements.contains d.longname = true ∧ d.AgreesInSignature d') := by
  cases h with
  | same => exact Or.inl rfl
  | member _ replaced agrees => exact Or.inr ⟨replaced, agrees⟩

/-- Records of types are the same in both lists. -/
theorem eq_of_makesType (h : Replaced c d d') (makes : d.kind.makesType = true) : d' = d := by
  cases h with
  | same => rfl
  | member member _ _ =>
    rw [Kind.makesType_of_makesMember member] at makes
    cases makes

/-- Expansion leaves records of members alone, so a pair either becomes one record or stays. -/
theorem expand (h : Replaced c d d') : (FunctionTypedef.expand d').1 = (FunctionTypedef.expand d).1 ∨
    ((FunctionTypedef.expand d).1 = d ∧ (FunctionTypedef.expand d').1 = d') := by
  have place := h.samePlace
  cases h with
  | same => exact Or.inl rfl
  | member makes _ _ =>
    have makes' : d'.kind.makesMember = true := by
      rw [place.kind]
      exact makes
    rw [FunctionTypedef.expand_of_ne_typedef (Kind.ne_typedef_of_makesMember makes),
      FunctionTypedef.expand_of_ne_typedef (Kind.ne_typedef_of_makesMember makes')]
    exact Or.inr ⟨rfl, rfl⟩

theorem expanded (h : Replaced c d d') :
    Replaced c (FunctionTypedef.expand d).1 (FunctionTypedef.expand d').1 := by
  rcases h.expand with one | ⟨same, same'⟩
  · rw [one]
    exact Replaced.same _
  · rw [same, same']
    exact h

end Replaced

end Doclet

/-- The member of a record is written. -/
def Catalogue.Writes (k : Catalogue) (d : Doclet) : Prop :=
  ∃ m ∈ k.recordMembers, m.doclet = d ∧ Declaration.member m ∈ k.written

/-! ## Pairs of members -/

/-- Two members of one owner that are made of related records. -/
structure Member.Pair (c : Config) (R : Doclet → Doclet → Prop) (m m' : Member) : Prop where
  doclets : R m.doclet m'.doclet
  owner : m'.owner = m.owner
  made : m = .ofDoclet (Catalogue.memberForm m.doclet) m.owner m.doclet c
  made' : m' = .ofDoclet (Catalogue.memberForm m'.doclet) m'.owner m'.doclet c

namespace Member.Pair

variable {c : Config} {R : Doclet → Doclet → Prop} {m m' : Member}

theorem imp {S : Doclet → Doclet → Prop} (weaker : ∀ {d d'}, R d d' → S d d') (h : Pair c R m m') :
    Pair c S m m' :=
  ⟨weaker h.doclets, h.owner, h.made, h.made'⟩

theorem eq_of_doclet (h : Pair c R m m') (same : m'.doclet = m.doclet) : m' = m :=
  calc m' = .ofDoclet (Catalogue.memberForm m'.doclet) m'.owner m'.doclet c := h.made'
    _ = .ofDoclet (Catalogue.memberForm m.doclet) m.owner m.doclet c := by rw [same, h.owner]
    _ = m := h.made.symm

theorem recorded (h : Pair c R m m') :
    (Declaration.member m).recorded c = m.doclet.mentionedNames c ∧
      (Declaration.member m').recorded c = m'.doclet.mentionedNames c := by
  constructor
  · conv_lhs => rw [h.made]
    rfl
  · conv_lhs => rw [h.made']
    rfl

theorem isPublic (h : Pair c (Doclet.Replaced c) m m') : m'.isPublic = m.isPublic := by
  rw [h.made, h.made']
  exact h.doclets.samePlace.isPublicByItself _

/-- **A replaced member is written as the configuration says**, whatever its signature is. -/
theorem sameText (h : Pair c (Doclet.Replaced c) m m') :
    (Declaration.member m).SameText c (.member m') := by
  rcases h.doclets.eq_or_replaced with same | ⟨replaced, agrees⟩
  · rw [h.eq_of_doclet same]
    exact Declaration.SameText.refl c _
  · obtain ⟨replacement, found⟩ := Option.isSome_iff_exists.1 replaced
    have found' := found
    rw [← h.doclets.samePlace.longname] at found'
    refine ⟨rfl, ?_, rfl, ?_⟩
    · show m'.doclet.modulePath = m.doclet.modulePath
      unfold Doclet.AgreesInSignature at agrees
      rw [agrees]
      rfl
    · intro level
      rw [Declaration.render, Declaration.render, Member.render, Member.render, found, found']

/-- If its signature mentions the same names, no run can tell it apart. -/
theorem alike (h : Pair c (Doclet.Replaced c) m m')
    (mentions : m'.doclet.mentionedNames c = m.doclet.mentionedNames c) :
    (Declaration.member m).Alike c (.member m') where
  toSameText := h.sameText
  collect := Declaration.collect_eq_of_recorded (by rw [h.recorded.1, h.recorded.2, mentions])

end Member.Pair

/-! ## Pairs of entries -/

/-- Two entries of one record, with members that are made of related records. -/
structure TypeEntry.Pair (c : Config) (R : Doclet → Doclet → Prop) (e e' : TypeEntry) : Prop where
  doclet : e'.doclet = e.doclet
  members : e.members = e.ownMembers ++ e.attached
  members' : e'.members = e.ownMembers ++ e'.attached
  attached : List.Forall₂ (Member.Pair c R) e.attached e'.attached

namespace TypeEntry.Pair

variable {c : Config} {R : Doclet → Doclet → Prop} {e e' : TypeEntry}

theorem isClass (h : Pair c R e e') : e'.isClass = e.isClass := by
  unfold TypeEntry.isClass
  rw [h.doclet]

/-- What holds of a member and itself and of attached members holds of all members. -/
theorem forall₂_members {S : Declaration → Declaration → Prop} (h : Pair c R e e')
    (refl : ∀ d, S d d)
    (related : ∀ m m', m ∈ e.attached → Member.Pair c R m m' → S (.member m) (.member m')) :
    List.Forall₂ S (e.members.map .member) (e'.members.map .member) := by
  have own : List.Forall₂ S (e.ownMembers.map .member) (e.ownMembers.map .member) :=
    List.forall₂_same.2 fun d _ => refl d
  have attached := (List.forall₂_and_left e.attached _).2 ⟨fun _ mem => mem, h.attached⟩
  rw [h.members, h.members', List.map_append, List.map_append]
  refine List.rel_append own (List.rel_map ?_ attached)
  rintro m m' ⟨mem, pair⟩
  exact related m m' mem pair

/-- **Types that own replaced members have the same text**, flags aside. -/
theorem sameText (h : Pair c (Doclet.Replaced c) e e') :
    e.toDeclaration.SameText c e'.toDeclaration := by
  unfold toDeclaration
  rw [h.isClass, h.doclet]
  by_cases isClass : e.isClass = true
  · rw [if_pos isClass, if_pos isClass]
    refine Declaration.SameText.classType _ _ _ (h.forall₂_members ?_ ?_)
    · exact fun d => ⟨rfl, fun _ => Declaration.SameText.refl c d⟩
    · exact fun m m' _ pair => ⟨pair.isPublic, fun _ => pair.sameText⟩
  · rw [if_neg isClass, if_neg isClass]
    refine Declaration.SameText.typedef _ _ _ (h.forall₂_members (Declaration.SameText.refl c) ?_)
    exact fun m m' _ pair => pair.sameText

/-- If the members that a type writes mention the same names, no run can tell the types apart. -/
theorem alike (h : Pair c R e e') (replaced : ∀ {d d'}, R d d' → Doclet.Replaced c d d')
    (mentions : ∀ m m', m ∈ e.attached → Member.Pair c R m m' →
      (e.isClass = true → m.isPublic = true) →
        m'.doclet.mentionedNames c = m.doclet.mentionedNames c) :
    e.toDeclaration.Alike c e'.toDeclaration := by
  unfold toDeclaration
  rw [h.isClass, h.doclet]
  by_cases isClass : e.isClass = true
  · rw [if_pos isClass, if_pos isClass]
    refine Declaration.Alike.classType _ _ _ (h.forall₂_members ?_ ?_)
    · exact fun d => ⟨rfl, fun _ => Declaration.Alike.refl c d⟩
    · intro m m' mem pair
      refine ⟨(pair.imp replaced).isPublic, fun isPublic => (pair.imp replaced).alike ?_⟩
      exact mentions m m' mem pair fun _ => isPublic
  · rw [if_neg isClass, if_neg isClass]
    refine Declaration.Alike.typedef _ _ _ (h.forall₂_members (Declaration.Alike.refl c) ?_)
    intro m m' mem pair
    exact (pair.imp replaced).alike (mentions m m' mem pair fun isClass' => absurd isClass' isClass)

theorem publish (h : Pair c R e e') : Pair c R e.publish e'.publish :=
  ⟨h.doclet, h.members, h.members', h.attached⟩

/-- Entries that were a pair once are a pair later on. -/
theorem raised (h : Pair c R e e') {later later' : TypeEntry} (raised : e.RaisedTo later)
    (raised' : e'.RaisedTo later') : Pair c R later later' := by
  refine ⟨?_, ?_, ?_, ?_⟩
  · rw [raised.doclet, raised'.doclet, h.doclet]
  · rw [raised.members, raised.ownMembers, raised.attached, h.members]
  · rw [raised'.members, raised.ownMembers, raised'.attached, h.members']
  · rw [raised.attached, raised'.attached]
    exact h.attached

end TypeEntry.Pair

/-! ## Pairs of catalogues -/

namespace Catalogue

section Build

variable {c : Config} {R : Doclet → Doclet → Prop}
  (replaced : ∀ {d d'}, R d d' → Doclet.Replaced c d d') {ds ds' : List Doclet}
  (twins : List.Forall₂ R ds ds')

include replaced twins

theorem typeDoclets_replaced : typeDoclets c ds' = typeDoclets c ds := by
  have pairs := forall₂_typeDoclets (c := c) (fun pair => (replaced pair).samePlace) twins
  have same := Lists.map_eq_of_forall₂ (f := id) (g := id)
    (fun d d' ⟨pair, makes⟩ => (replaced pair).eq_of_makesType makes) pairs
  rw [List.map_id, List.map_id] at same
  exact same

theorem findings_replaced : (build c ds').2 = (build c ds).2 := by
  show ((typeDoclets c ds').foldl (addType c) ({}, [])).2 = _
  rw [typeDoclets_replaced replaced twins]
  rfl

theorem keys_replaced : (build c ds').1.types.keys = (build c ds).1.types.keys := by
  rw [keys_build, keys_build, typeDoclets_replaced replaced twins]

theorem forall₂_ofDoclet (owner : Owner) (p : Doclet → Bool)
    (alike : ∀ {d d'}, d.SamePlace d' → p d' = p d) :
    List.Forall₂ (Member.Pair c R)
      (((memberDoclets c ds).filter p).map fun d => .ofDoclet (memberForm d) owner d c)
      (((memberDoclets c ds').filter p).map fun d => .ofDoclet (memberForm d) owner d c) := by
  have pairs := forall₂_memberDoclets (c := c) (fun pair => (replaced pair).samePlace) twins
  have kept := Lists.forall₂_filter (p := p) (q := p)
    (fun d d' pair => alike (replaced pair.1).samePlace) pairs
  exact List.rel_map (fun d d' ⟨⟨pair, _⟩, _⟩ => ⟨pair, rfl, rfl, rfl⟩) kept

/-- Under a longname stand entries of one record, with members of related records. -/
theorem pair_of_resolve? {name : String} {e e' : TypeEntry}
    (found : (build c ds).1.resolve? name = some e)
    (found' : (build c ds').1.resolve? name = some e') :
    TypeEntry.Pair c R e e' ∧ e'.isPublic = e.isPublic := by
  have stands := (standsFor_of_resolve? found).1
  have stands' := (standsFor_of_resolve? found').1
  have attached := attached_of_resolve? found
  have attached' := attached_of_resolve? found'
  -- The same first type of the longname is found in both lists.
  have entry : e'.doclet = e.doclet ∧ e'.isPublic = e.isPublic := by
    rw [resolve?_build, Option.map_eq_some_iff] at found found'
    obtain ⟨t, first, rfl⟩ := found
    obtain ⟨t', first', rfl⟩ := found'
    rw [typeDoclets_replaced replaced twins] at first'
    cases first.symm.trans first'
    exact ⟨rfl, rfl⟩
  have owner : e'.ownerOfMembers = e.ownerOfMembers := by
    unfold TypeEntry.ownerOfMembers TypeEntry.isClass
    rw [entry.1]
  have own : e'.ownMembers = e.ownMembers := by
    unfold TypeEntry.ownMembers
    rw [entry.1]
  refine ⟨⟨entry.1, stands.members, own ▸ stands'.members, ?_⟩, entry.2⟩
  rw [attached, attached', owner]
  refine forall₂_ofDoclet replaced twins _ _ fun place => ?_
  unfold parentName
  rw [place.memberof]

theorem moduleMembers_replaced :
    List.Forall₂ (Member.Pair c R) (build c ds).1.moduleMembers (build c ds').1.moduleMembers := by
  rw [moduleMembers_build, moduleMembers_build, keys_replaced replaced twins]
  refine forall₂_ofDoclet replaced twins _ _ fun place => ?_
  unfold parentName
  rw [place.memberof]

end Build

/-- A member that a record makes is written by a type that is public, if it is public by itself or
the type is an interface. -/
theorem writes_of_attached {c : Config} {ds : List Doclet} {name : String} {e : TypeEntry}
    (found : (build c ds).1.resolve? name = some e)
    (isShown : name ∈ Surface.publicNames (closedCatalogue c ds)) {m : Member}
    (mem : m ∈ e.attached) (shows : e.isClass = true → m.isPublic = true) :
    (closedCatalogue c ds).Writes m.doclet := by
  have published := onlyPublishes_closedCatalogue c ds
  obtain ⟨later, now, isPublic⟩ :=
    (Surface.mem_publicNames (keyed_closedCatalogue c ds)).1 isShown
  obtain ⟨before, was, raised⟩ := published.raised_back now
  cases was.symm.trans found
  have isEntry := OrderedMap.mem_values_iff.2 ⟨name, now⟩
  have isAttached : m ∈ later.attached := raised.attached ▸ mem
  have sameClass : later.isClass = e.isClass := by
    unfold TypeEntry.isClass
    rw [raised.doclet]
  refine ⟨m, ?_, rfl, member_mem_written_iff.2 (Or.inr ⟨later, isEntry, isPublic, ?_, ?_⟩)⟩
  · exact List.mem_append_left _ (List.mem_flatMap.2 ⟨later, isEntry, isAttached⟩)
  · exact List.mem_of_mem_drop isAttached
  · exact fun isClass => shows (sameClass ▸ isClass)

theorem writes_of_moduleMember {c : Config} {ds : List Doclet} {m : Member}
    (mem : m ∈ (build c ds).1.moduleMembers) (isPublic : m.isPublic = true) :
    (closedCatalogue c ds).Writes m.doclet := by
  have ofModule : m ∈ (closedCatalogue c ds).moduleMembers := by
    rw [(onlyPublishes_closedCatalogue c ds).moduleMembers]
    exact mem
  exact ⟨m, List.mem_append_right _ ofModule, rfl,
    member_mem_written_iff.2 (Or.inl ⟨ofModule, isPublic⟩)⟩

/-- **Catalogues of records that differ in replaced signatures are alike**, if the signatures that
are replaced in what is written mention the same names. -/
theorem build_alike {c : Config} {ds ds' : List Doclet}
    (twins : List.Forall₂ (Doclet.Replaced c) ds ds')
    (mentions : List.Forall₂ (fun d d' => (closedCatalogue c ds).Writes d →
      d'.mentionedNames c = d.mentionedNames c) ds ds') :
    Alike c (Surface.publicNames (closedCatalogue c ds)) (build c ds).1 (build c ds').1 := by
  have both := Lists.forall₂_and twins mentions
  refine ⟨by rw [addedTypes_build, addedTypes_build], ?_, ?_⟩
  · have pairs := (List.forall₂_and_left (build c ds).1.moduleMembers _).2
      ⟨fun _ mem => mem, moduleMembers_replaced And.left both⟩
    refine List.rel_map ?_ pairs
    rintro m m' ⟨mem, pair⟩
    refine ⟨(pair.imp And.left).isPublic, fun isPublic => (pair.imp And.left).alike ?_⟩
    exact pair.doclets.2 (writes_of_moduleMember mem isPublic)
  · refine Lists.forall₂_of_keys (keys_replaced And.left both) ?_
    intro name e e' mem mem'
    have found : (build c ds).1.resolve? name = some e := OrderedMap.get?_eq_some_iff.2 mem
    have found' : (build c ds').1.resolve? name = some e' := OrderedMap.get?_eq_some_iff.2 mem'
    obtain ⟨pair, isPublic⟩ := pair_of_resolve? And.left both found found'
    refine ⟨rfl, isPublic, pair.isClass, fun isShown => ?_⟩
    refine pair.publish.alike And.left fun m m' mem members shows => ?_
    exact members.doclets.2 (writes_of_attached found isShown mem shows)

end Catalogue

/-! ## What is written -/

/-- **If the same types are public after both runs, the same text is written.** -/
theorem emitted_sameText {c : Config} {ds ds' : List Doclet}
    (twins : List.Forall₂ (Doclet.Replaced c) ds ds')
    (same : Surface.publicNames (closedCatalogue c ds') =
      Surface.publicNames (closedCatalogue c ds)) :
    List.Forall₂ (Declaration.SameText c) (closedCatalogue c ds).emitted
      (closedCatalogue c ds').emitted := by
  have published := onlyPublishes_closedCatalogue c ds
  have published' := onlyPublishes_closedCatalogue c ds'
  have keyed := keyed_closedCatalogue c ds
  have keyed' := keyed_closedCatalogue c ds'
  have keys : (closedCatalogue c ds').types.keys = (closedCatalogue c ds).types.keys := by
    rw [published.keys, published'.keys, Catalogue.keys_replaced id twins]
  have addedTypes : (closedCatalogue c ds').addedTypes = (closedCatalogue c ds).addedTypes := by
    rw [published.addedTypes, published'.addedTypes, Catalogue.addedTypes_build,
      Catalogue.addedTypes_build]
  refine Catalogue.forall₂_emitted (Declaration.SameText.refl c) addedTypes
    (Catalogue.forall₂_declared (Lists.forall₂_of_keys keys ?_) ?_)
  · intro name e e' mem mem'
    have found := OrderedMap.get?_eq_some_iff.2 mem
    have found' := OrderedMap.get?_eq_some_iff.2 mem'
    obtain ⟨before, was, raised⟩ := published.raised_back found
    obtain ⟨before', was', raised'⟩ := published'.raised_back found'
    have pair := (Catalogue.pair_of_resolve? id twins was was').1.raised raised raised'
    have isPublic : e'.isPublic = e.isPublic := by
      rw [Bool.eq_iff_iff, Surface.isPublic_iff_mem_publicNames keyed found,
        Surface.isPublic_iff_mem_publicNames keyed' found', same]
    refine ⟨pair.isClass, ?_, fun _ => pair.sameText⟩
    rw [TypeEntry.isPublic_toDeclaration, TypeEntry.isPublic_toDeclaration]
    exact isPublic
  · rw [published.moduleMembers, published'.moduleMembers]
    refine List.rel_map ?_ (Catalogue.moduleMembers_replaced id twins)
    exact fun m m' pair => ⟨pair.isPublic, fun _ => pair.sameText⟩

/-! ## The outcome -/

/-- The outcome for expanded records that differ in replaced signatures. -/
theorem generate_of_replaced {c : Config} {ds ds' : List Doclet} {earlier earlier' : List Finding}
    (twins : List.Forall₂ (Doclet.Replaced c) ds ds')
    (warned : Finding.countWarnings earlier' = Finding.countWarnings earlier) :
    let output := generate c ds earlier
    let output' := generate c ds' earlier'
    (Surface.publicNames (closedCatalogue c ds') = Surface.publicNames (closedCatalogue c ds) →
      output'.declarations = output.declarations ∧ output'.publicTypes = output.publicTypes) ∧
    (List.Forall₂ (fun d d' => (closedCatalogue c ds).Writes d →
        d'.mentionedNames c = d.mentionedNames c) ds ds' →
      output'.declarations = output.declarations ∧ output'.publicTypes = output.publicTypes ∧
        output'.unresolved = output.unresolved ∧ output'.stats = output.stats) := by
  intro output output'
  refine ⟨fun same => ?_, fun mentions => ?_⟩
  · exact generate_of_sameText (emitted_sameText twins same) earlier earlier'
  · exact generate_of_alike c (Catalogue.build_alike twins mentions)
      (Catalogue.findings_replaced id twins) warned

namespace Session

/-- **A replaced member shows its replacement only, but its own signature still counts for what is
public.** Take two lists of records that are the same up to the signatures of members that the
configuration replaces. If the same types are public after both runs, the same text is written and
the same types are listed. If the replaced members that the first run writes mention the same names
in both lists, the unresolved names and the statistics are the same, too. -/
theorem generate_replaced (c : Config) (ds ds' : List Doclet)
    (twins : List.Forall₂ (Doclet.Replaced c) ds ds') :
    let session := ({ config := c } : Session).addAll ds
    let session' := ({ config := c } : Session).addAll ds'
    let closed := (Surface.close c (Catalogue.build c session.doclets).1).1
    let closed' := (Surface.close c (Catalogue.build c session'.doclets).1).1
    let output := session.generate.2
    let output' := session'.generate.2
    (Surface.publicNames closed' = Surface.publicNames closed →
      output'.declarations = output.declarations ∧ output'.publicTypes = output.publicTypes) ∧
    (List.Forall₂ (fun d d' => closed.Writes d → d'.mentionedNames c = d.mentionedNames c) ds ds' →
      output'.declarations = output.declarations ∧ output'.publicTypes = output.publicTypes ∧
        output'.unresolved = output.unresolved ∧ output'.stats = output.stats) := by
  intro session session' closed closed' output output'
  have taken : session.doclets = ds.map fun d => (FunctionTypedef.expand d).1 :=
    doclets_addAll { config := c } ds
  have taken' : session'.doclets = ds'.map fun d => (FunctionTypedef.expand d).1 :=
    doclets_addAll { config := c } ds'
  have warned : Finding.countWarnings session'.findings =
      Finding.countWarnings session.findings := by
    show Finding.countWarnings (addAll _ _).findings = Finding.countWarnings (addAll _ _).findings
    rw [countWarnings_addAll, countWarnings_addAll]
  have expanded : List.Forall₂ (Doclet.Replaced c) session.doclets session'.doclets := by
    rw [taken, taken']
    exact List.rel_map (fun _ _ pair => pair.expanded) twins
  rw [show output = _ from output_addAll c ds, show output' = _ from output_addAll c ds']
  obtain ⟨sameText, sameRun⟩ := generate_of_replaced expanded warned
  refine ⟨sameText, fun mentions => sameRun ?_⟩
  rw [taken, taken']
  refine List.rel_map ?_ (Lists.forall₂_and twins mentions)
  intro d d' ⟨pair, named⟩
  show (closedCatalogue c (ds.map _)).Writes (FunctionTypedef.expand d).1 →
    (FunctionTypedef.expand d').1.mentionedNames c = (FunctionTypedef.expand d).1.mentionedNames c
  -- Only pairs that stay can differ, and for them the names are given.
  rcases pair.expand with one | ⟨same, same'⟩
  · intro _
    rw [one]
  · rw [same, same', ← taken]
    exact named

/-- A class with a method that the configuration replaces, and a private class. -/
def replacedRecords (parameterType : String) : List Doclet :=
  [{ name := "Map", longname := "Map", kind := .classType },
   { name := "render", longname := "Map#render", kind := .function, memberof := some "Map",
     params := [{ name := some "frame", type := some ⟨[parameterType]⟩ }] },
   { name := "Frame", longname := "Frame", kind := .classType, access := some .privateAccess }]

/-- The method is written without its parameter. -/
def replacingConfig : Config where
  memberReplacements := .ofList [("Map#render", { declaration := "render(): void;" })]

/-- Another parameter type that mentions the same class. -/
theorem generate_replaced_frame :
    let output := (({ config := replacingConfig } : Session).addAll
      (replacedRecords "Frame")).generate.2
    let output' := (({ config := replacingConfig } : Session).addAll
      (replacedRecords "Array<Frame>")).generate.2
    output'.declarations = output.declarations ∧ output'.publicTypes = output.publicTypes ∧
      output'.unresolved = output.unresolved ∧ output'.stats = output.stats := by
  refine (generate_replaced replacingConfig _ _ (.cons (.same _) (.cons ?method
    (.cons (.same _) .nil)))).2 (.cons (fun _ => rfl) (.cons ?names (.cons (fun _ => rfl) .nil)))
  case method => exact .member rfl (by decide +kernel) rfl
  case names =>
    intro _
    decide +kernel

/-- The signature of a replaced method makes a type public that nothing in the text mentions. -/
theorem generate_ne_of_replaced_signature :
    let session := ({ config := replacingConfig } : Session).addAll (replacedRecords "number")
    let session' := ({ config := replacingConfig } : Session).addAll (replacedRecords "Frame")
    List.Forall₂ (Doclet.Replaced replacingConfig) (replacedRecords "number")
      (replacedRecords "Frame") ∧
    session'.generate.2.publicTypes ≠ session.generate.2.publicTypes ∧
    session'.generate.2.declarations ≠ session.generate.2.declarations := by
  refine ⟨.cons (.same _) (.cons (.member rfl ?_ rfl) (.cons (.same _) .nil)), ?_, ?_⟩
  all_goals decide +kernel

end Session

end Ambient
