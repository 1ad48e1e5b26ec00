import Ambient.Proofs.Printed
import Ambient.Proofs.Representation
import Ambient.Proofs.Surface.Closure
import Ambient.Proofs.TypeExpr.Plain
/-!
# Types that the configuration adds

The types that the configuration adds are written as they stand there, blanks and semicolons at
their ends apart, while a visit reads the types in them like any other. The two agree on a name
unless a visit reads something else in its place: a text with a semicolon, an entry of the
replacements, or the word `array`. Then the closure does not account for a name that is written.

## Main definitions

* `AddedInterface.DeclaresProperty`: a line declares a property with a type.
* `AddedType.Writes`: a name is written as the type of an alias or of a property.

## Main statements

* `AddedInterface.memberType?_of_declares`: a visit finds the type that is written in a property.
* `Surface.close_added`: when the closure accounts for a name that is written.
* `Surface.close_added_semicolon`: a name that is written and not accounted for.
-/

namespace Ambient

open TypeExpr

/-! ## Lines of properties -/

namespace AddedInterface

/-- What may stand in front of the name of a property: `readonly` and blanks, or nothing. -/
inductive IsModifier : List Char → Prop
  | nothing : IsModifier []
  | readonly {blanks : List Char} (filled : blanks ≠ [])
      (blank : ∀ c ∈ blanks, Text.isBlank c = true) : IsModifier ("readonly".toList ++ blanks)

/-- What stands between the name of a property and its type: a colon, after an optional question
mark. -/
inductive IsColon : List Char → Prop
  | required {blanks : List Char} (blank : ∀ c ∈ blanks, Text.isBlank c = true) :
      IsColon (blanks ++ [':'])
  | optional {blanks : List Char} (blank : ∀ c ∈ blanks, Text.isBlank c = true) :
      IsColon ('?' :: (blanks ++ [':']))

/-- A type with blanks around it, and with a semicolon behind it or nothing. -/
inductive IsTail (type : List Char) : List Char → Prop
  | mk {before after closing : List Char} (blank : ∀ c ∈ before, Text.isBlank c = true)
      (blank' : ∀ c ∈ after, Text.isBlank c = true) (closed : closing = [] ∨ closing = [';']) :
      IsTail type (before ++ (type ++ after ++ closing))

/-- A line declares a property with a type: an optional `readonly`, a name, an optional question
mark, a colon, the type, and an optional semicolon. -/
inductive DeclaresProperty (type : List Char) : List Char → Prop
  | mk {modifier name colon tail : List Char} (modified : IsModifier modifier) (filled : name ≠ [])
      (chars : ∀ c ∈ name, Text.isNameChar c = true) (joined : IsColon colon)
      (ends : IsTail type tail) : DeclaresProperty type (modifier ++ (name ++ (colon ++ tail)))

namespace IsColon

variable {colon : List Char}

/-- No character of a name follows a name, not even behind blanks. -/
theorem head (h : IsColon colon) (tail : List Char) :
    (∃ c more, colon ++ tail = c :: more ∧ Text.isNameChar c = false) ∧
      ∃ c more, Text.trimStart (colon ++ tail) = c :: more ∧ Text.isNameChar c = false := by
  cases h with
  | @required blanks blank =>
    refine ⟨?_, ':', tail, ?_, rfl⟩
    · cases blanks with
      | nil => exact ⟨':', tail, rfl, rfl⟩
      | cons c rest => exact ⟨c, _, rfl, isNameChar_of_isBlank (blank c List.mem_cons_self)⟩
    · rw [List.append_assoc, Text.trimStart_append blank]
      rfl
  | optional blank => exact ⟨⟨'?', _, rfl, rfl⟩, '?', _, rfl, rfl⟩

/-- A name ends where the colon comes. -/
theorem takeWhile_append (h : IsColon colon) {name : List Char}
    (chars : ∀ c ∈ name, Text.isNameChar c = true) (tail : List Char) :
    (name ++ (colon ++ tail)).takeWhile Text.isNameChar = name := by
  obtain ⟨⟨c, more, start, other⟩, -⟩ := h.head tail
  rw [start, Text.takeWhile_word chars other]

theorem dropWhile_append (h : IsColon colon) {name : List Char}
    (chars : ∀ c ∈ name, Text.isNameChar c = true) (tail : List Char) :
    (name ++ (colon ++ tail)).dropWhile Text.isNameChar = colon ++ tail := by
  obtain ⟨⟨c, more, start, other⟩, -⟩ := h.head tail
  rw [start, Text.dropWhile_word chars other]

/-- Behind the optional question mark and blanks, the type follows the colon. -/
theorem trimStart_getD (h : IsColon colon) (tail : List Char) :
    Text.trimStart ((Text.dropStart? ['?'] (colon ++ tail)).getD (colon ++ tail)) =
      ':' :: tail := by
  cases h with
  | @required blanks blank =>
    have unmarked : Text.dropStart? ['?'] (blanks ++ [':'] ++ tail) = none := by
      refine Text.dropStart?_eq_none_of_head ?_
      cases blanks with
      | nil => simp
      | cons c rest =>
        intro first
        cases first
        exact absurd (blank _ List.mem_cons_self) (by decide)
    rw [unmarked, Option.getD_none, List.append_assoc, Text.trimStart_append blank]
    rfl
  | @optional blanks blank =>
    have marked : Text.dropStart? ['?'] ('?' :: (blanks ++ [':']) ++ tail) =
        some (blanks ++ [':'] ++ tail) := Text.dropStart?_append ['?'] _
    rw [marked, Option.getD_some, List.append_assoc, Text.trimStart_append blank]
    rfl

end IsColon

/-! ## The type in a property -/

section Property

variable {type name colon : List Char}

/-- A name that a colon follows is no modifier, whatever it is. -/
theorem afterReadonly_of_colon (chars : ∀ c ∈ name, Text.isNameChar c = true)
    (joined : IsColon colon) (tail : List Char) :
    afterReadonly (name ++ (colon ++ tail)) = name ++ (colon ++ tail) := by
  unfold afterReadonly
  cases cut : Text.dropStart? "readonly".toList (name ++ (colon ++ tail)) with
  | none => rfl
  | some rest =>
    cases rest with
    | nil => rfl
    | cons c rest =>
      cases behind : Text.trimStart (c :: rest) with
      | nil => simp only [behind]
      | cons d more =>
        simp only [behind]
        refine if_neg fun both => ?_
        obtain ⟨blank, nameChar⟩ := Bool.and_eq_true_iff.1 both
        -- The word is the whole name then, and the colon is what comes first behind it.
        have same : c :: rest = colon ++ tail := by
          have dropped := joined.dropWhile_append chars tail
          rw [Text.dropStart?_eq_some_iff.1 cut,
            Text.dropWhile_word (List.all_eq_true.1 rfl) (isNameChar_of_isBlank blank)] at dropped
          exact dropped
        obtain ⟨-, d', more', start, other⟩ := joined.head tail
        rw [← same, behind] at start
        cases start
        rw [other] at nameChar
        cases nameChar

/-- A modifier in front of a name is left out. -/
theorem afterReadonly_of_modifier {modifier : List Char} (modified : IsModifier modifier)
    (filled : name ≠ []) (chars : ∀ c ∈ name, Text.isNameChar c = true) (joined : IsColon colon)
    (tail : List Char) :
    afterReadonly (modifier ++ (name ++ (colon ++ tail))) = name ++ (colon ++ tail) := by
  cases modified with
  | nothing => exact afterReadonly_of_colon chars joined tail
  | @readonly blanks nonempty blank =>
    obtain ⟨c, rest, rfl⟩ := List.exists_cons_of_ne_nil nonempty
    obtain ⟨d, more, rfl⟩ := List.exists_cons_of_ne_nil filled
    have nameChar := chars d List.mem_cons_self
    have solid : Text.isBlank d = false := isBlank_of_isNameChar nameChar
    have cut : Text.dropStart? "readonly".toList
        ("readonly".toList ++ c :: rest ++ (d :: more ++ (colon ++ tail))) =
          some (c :: (rest ++ (d :: more ++ (colon ++ tail)))) := by
      rw [List.append_assoc]
      exact Text.dropStart?_append _ _
    have behind : Text.trimStart (c :: (rest ++ (d :: more ++ (colon ++ tail)))) =
        d :: (more ++ (colon ++ tail)) := by
      rw [← List.cons_append, Text.trimStart_append blank]
      exact Text.trimStart_eq_self rfl solid
    unfold afterReadonly
    simp only [cut, behind, blank c List.mem_cons_self, nameChar, Bool.and_self, if_true]
    rfl

/-- The type is found between blanks and in front of a semicolon. -/
theorem propertyType?_of_tail (base : IsBase type) {tail blanks : List Char}
    (ends : IsTail type tail) (blank : ∀ c ∈ blanks, Text.isBlank c = true) :
    propertyType? (tail ++ blanks) = some type := by
  have oneLine : type.contains '\n' = false := by
    rw [← Bool.not_eq_true, List.contains_iff_mem]
    exact base.not_mem rfl
  have nonempty : type.isEmpty = false := by
    rw [← Bool.not_eq_true, List.isEmpty_iff]
    exact base.filled
  obtain @⟨before, after, closing, blankBefore, blankAfter, closed⟩ := ends
  unfold propertyType?
  rcases closed with rfl | rfl
  · have bare : Text.trim (before ++ (type ++ after ++ []) ++ blanks) = type := by
      have behind : ∀ c ∈ after ++ blanks, Text.isBlank c = true := fun c mem =>
        (List.mem_append.1 mem).elim (blankAfter c) (blank c)
      simpa using base.tight.trim_append blankBefore behind
    have unclosed : Text.dropFinish? ([] ++ [';']) type = none :=
      Text.dropFinish?_eq_none_of_last (base.getLast?_ne rfl)
    rw [List.nil_append] at unclosed
    simp only [bare, unclosed, nonempty, oneLine, Bool.false_eq_true, if_false, Bool.or_self]
  · have tight : Text.Tight (type ++ after ++ [';']) := by
      refine ⟨?_, ⟨';', by simp, rfl⟩⟩
      obtain ⟨c, first, solid⟩ := base.tight.first
      exact ⟨c, by rw [List.append_assoc, base.tight.head?_append, first], solid⟩
    have bare := tight.trim_append blankBefore blank
    have closed := Text.dropFinish?_append (type ++ after) [';']
    have spaced : Text.trimEnd (type ++ after) = type := by
      obtain ⟨c, last, solid⟩ := base.tight.last
      rw [Text.trimEnd_append type blankAfter, Text.trimEnd_eq_self last solid]
    simp only [bare, closed, spaced, nonempty, oneLine, Bool.false_eq_true, if_false, Bool.or_self]

/-- The semicolon that closes a line is no part of the type. -/
theorem DeclaresProperty.of_semicolon {line : List Char} (base : IsBase type)
    (h : DeclaresProperty type (line ++ [';'])) : DeclaresProperty type line := by
  generalize whole : line ++ [';'] = closedLine at h
  obtain @⟨modifier, name, colon, tail, modified, filled, chars, joined, ends⟩ := h
  obtain @⟨before, after, closing, blank, blank', closed⟩ := ends
  rcases closed with rfl | rfl
  · -- Without a semicolon, the line would end with the type or with a blank.
    have last : (type ++ after).getLast? = some ';' := by
      have same := congrArg List.getLast? whole
      have filled' : type ++ after ≠ [] := fun empty =>
        base.filled (List.append_eq_nil_iff.1 empty).1
      simp only [List.getLast?_concat, List.append_nil, ← List.append_assoc _ _ (type ++ after),
        List.getLast?_append_of_ne_nil _ filled'] at same
      exact same.symm
    rcases List.mem_append.1 (List.mem_of_getLast? last) with inside | behind
    · exact absurd inside (base.not_mem rfl)
    · exact absurd (blank' _ behind) (by decide)
  · have same : line ++ [';'] =
        modifier ++ (name ++ (colon ++ (before ++ (type ++ after ++ [])))) ++ [';'] := by
      rw [whole]
      simp
    rw [List.append_cancel_right same]
    exact ⟨modified, filled, chars, joined, ⟨blank, blank', Or.inl rfl⟩⟩

theorem memberLine_cases (member : String) :
    (memberLine member).toList = Text.trim member.toList ∨
      (memberLine member).toList = Text.trim member.toList ++ [';'] := by
  have whole : (Text.trimmed member).toList = Text.trim member.toList := String.toList_ofList
  unfold memberLine
  dsimp only
  split
  · exact Or.inl whole
  · exact Or.inl whole
  · exact Or.inr (by rw [String.toList_append, whole]; rfl)

/-- **The type that a visit finds in a property is the one that is written.** -/
theorem memberType?_of_declares (base : IsBase type) {member : String}
    (h : DeclaresProperty type (memberLine member).toList) :
    memberType? member.toList = some type := by
  have bare : DeclaresProperty type (Text.trim member.toList) := by
    rcases memberLine_cases member with same | closed
    · rwa [same] at h
    · rw [closed] at h
      exact h.of_semicolon base
  -- Blanks at the end of the text are still there when the type is looked for.
  obtain ⟨blanks, blank, whole⟩ :=
    Text.exists_dropped_append Text.isBlank (Text.trimStart member.toList)
  unfold Text.trim Text.trimEnd at bare
  generalize ((Text.trimStart member.toList).reverse.dropWhile Text.isBlank).reverse = line
    at bare whole
  obtain @⟨modifier, name, colon, tail, modified, filled, chars, joined, ends⟩ := bare
  have layout : Text.trimStart member.toList =
      modifier ++ (name ++ (colon ++ (tail ++ blanks))) := by
    rw [← whole]
    simp
  have nonempty : name.isEmpty = false := by
    rw [← Bool.not_eq_true, List.isEmpty_iff]
    exact filled
  unfold memberType?
  simp only [layout, afterReadonly_of_modifier modified filled chars joined,
    joined.takeWhile_append chars, joined.dropWhile_append chars, joined.trimStart_getD, nonempty,
    Bool.false_eq_true, if_false]
  exact propertyType?_of_tail base ends blank

end Property

end AddedInterface

/-! ## Names that are written -/

/-- A type that the configuration adds writes a name as its type, or as the type of a property, in
place of a raw text. -/
inductive AddedType.Writes : AddedType → (name raw : String) → Prop
  | target (a : AddedAlias) : Writes (.typeAlias a) a.targetText a.target
  | property {i : AddedInterface} {member name : String} (mem : member ∈ i.members)
      (declares : AddedInterface.DeclaresProperty name.toList
        (AddedInterface.memberLine member).toList) : Writes (.interface i) name name

/-- Only blanks and semicolons are left out when a target is written. -/
theorem AddedAlias.exists_targetText_append (a : AddedAlias) :
    ∃ t, (∀ c ∈ t, c = ';') ∧ Text.trim a.target.toList = a.targetText.toList ++ t := by
  obtain ⟨t, semicolons, whole⟩ := Text.exists_dropped_append (· == ';') (Text.trim a.target.toList)
  refine ⟨t, fun c mem => beq_iff_eq.1 (semicolons c mem), ?_⟩
  rw [targetText, String.toList_ofList, whole]

namespace AddedType.Writes

variable {t : AddedType} {name raw : String}

/-- What is written as a type is visited. -/
theorem mem_mentions (h : t.Writes name raw) (accepted : References.accepts name = true) :
    { raw, bound := [] } ∈ t.toDeclaration.mentions := by
  have base := isBase_of_isReference (References.accepts_iff.1 accepted).2
  cases h with
  | target a => exact List.mem_singleton_self _
  | @property i member name mem declares =>
    show _ ∈ Mention.recorder.recordAll i.propertyTypes []
    rw [Declaration.recordAll_mentions, List.nil_append]
    refine List.mem_map.2 ⟨name, List.mem_filterMap.2 ⟨member, mem, ?_⟩, rfl⟩
    rw [AddedInterface.memberType?_of_declares base declares, Option.map_some, String.ofList_toList]

/-- The name is the only one that a visit can find there. -/
theorem referencesIn (h : t.Writes name raw) (accepted : References.accepts name = true)
    (c : Config) :
    c.referencesIn { raw, bound := [] } = if c.ReadsAs raw name then [name] else [] := by
  cases h with
  | target a =>
    obtain ⟨t, semicolons, bare⟩ := a.exists_targetText_append
    exact c.referencesIn_of_accepts accepted semicolons bare
  | property => exact c.referencesIn_reference accepted

/-- A name that is read as it is written is recorded. -/
theorem mem_recorded (h : t.Writes name raw) (accepted : References.accepts name = true)
    {c : Config} (reads : c.ReadsAs raw name) : name ∈ t.toDeclaration.recorded c := by
  refine Declaration.mem_recorded.2 (List.mem_flatMap.2 ⟨_, h.mem_mentions accepted, ?_⟩)
  rw [h.referencesIn accepted, if_pos reads]
  exact List.mem_singleton_self name

end AddedType.Writes

/-! ## What the closure accounts for -/

namespace Surface

/-- A name that is read as it is written is accounted for after the last pass. -/
theorem run_added {c : Config} {k : Catalogue} (keyed : k.KeyedByLongname) {t : AddedType}
    {name raw : String} (mem : t ∈ (run c k).1.catalogue.addedTypes.values)
    (writes : t.Writes name raw) (accepted : References.accepts name = true)
    (reads : c.ReadsAs raw name) :
    name ∈ publicNames (run c k).1.catalogue ∨ name ∈ (run c k).1.catalogue.addedTypes.keys ∨
      name ∈ (run c k).1.unresolved.names := by
  rw [(run_invariant c keyed).onlyPublishes.addedTypes] at mem
  exact run_accounted keyed (.addedType mem (writes.mem_recorded accepted reads))

/-- **When the closure accounts for a name that is written.** Where an alias or a property that the
configuration adds is written with a reference as its type, a visit passes the text that stands
there in the configuration. It finds that reference if there is nothing but blanks around it, no
replacement for it, and not the word `array`; otherwise it finds no name. A reference that is found
is a public class or typedef, a type that the configuration adds, or unresolved. -/
theorem close_added (c : Config) (doclets : List Doclet) :
    let k := (Catalogue.build c doclets).1
    let closed := (close c k).1
    let report := (close c k).2
    ∀ t ∈ closed.addedTypes.values, ∀ name raw, t.Writes name raw →
      References.accepts name = true →
      { raw, bound := [] } ∈ t.toDeclaration.mentions ∧
      c.referencesIn { raw, bound := [] } = (if c.ReadsAs raw name then [name] else []) ∧
      (c.ReadsAs raw name → name ∈ publicNames closed ∨ name ∈ closed.addedTypes.keys ∨
        name ∈ report.unresolved) := by
  intro k closed report t mem name raw writes accepted
  have keyed := Catalogue.keyed_build c doclets
  exact ⟨writes.mem_mentions accepted, writes.referencesIn accepted c,
    run_added keyed mem writes accepted⟩

/-- The last type of a name that the configuration adds is in the closed catalogue. -/
theorem mem_addedTypes_close {c : Config} {t : AddedType} (doclets : List Doclet) (name : String)
    (last : (Catalogue.configuredTypes c).reverse.find? (fun t => t.fullName = name) = some t) :
    t ∈ (close c (Catalogue.build c doclets).1).1.addedTypes.values := by
  have published := (run_invariant c (Catalogue.keyed_build c doclets)).onlyPublishes
  show t ∈ (run c (Catalogue.build c doclets).1).1.catalogue.addedTypes.values
  rw [published.addedTypes, OrderedMap.mem_values_iff]
  exact ⟨name, (Catalogue.get?_addedTypes_build c doclets name).trans last⟩

/-- A property of which the type is a private class. -/
theorem close_added_property :
    let member := "readonly center?: Coordinate"
    let i : AddedInterface := { path := none, name := "View", members := [member] }
    let c := ({} : Config).addInterface i.path i.name i.members
    let coordinate : Doclet :=
      { name := "Coordinate", longname := "Coordinate", kind := .classType
        access := some .privateAccess }
    let closed := (close c (Catalogue.build c [coordinate]).1).1
    let report := (close c (Catalogue.build c [coordinate]).1).2
    (AddedType.interface i).Writes "Coordinate" "Coordinate" ∧
      c.ReadsAs "Coordinate" "Coordinate" ∧
      ("Coordinate" ∈ publicNames closed ∨ "Coordinate" ∈ closed.addedTypes.keys ∨
        "Coordinate" ∈ report.unresolved) := by
  intro member i c coordinate closed report
  have space : ∀ x ∈ [' '], Text.isBlank x = true := List.all_eq_true.1 rfl
  have nothing : ∀ x ∈ ([] : List Char), Text.isBlank x = true := List.all_eq_true.1 rfl
  have chars : ∀ x ∈ "center".toList, Text.isNameChar x = true := List.all_eq_true.1 (by decide)
  have line : (AddedInterface.memberLine member).toList =
      "readonly".toList ++ [' '] ++ ("center".toList ++ ('?' :: ([] ++ [':']) ++
        ([' '] ++ ("Coordinate".toList ++ [] ++ [';'])))) := by decide +kernel
  have writes : (AddedType.interface i).Writes "Coordinate" "Coordinate" := by
    refine .property (List.mem_singleton_self member) ?_
    rw [line]
    exact .mk (.readonly (List.cons_ne_nil _ _) space) (by decide) chars (.optional nothing)
      (.mk space nothing (Or.inr rfl))
  have reads : c.ReadsAs "Coordinate" "Coordinate" := by decide +kernel
  have mem := mem_addedTypes_close (c := c) (t := .interface i) [coordinate] "View" rfl
  have accepted : References.accepts "Coordinate" = true := by decide +kernel
  exact ⟨writes, reads, (close_added c [coordinate] _ mem _ _ writes accepted).2.2 reads⟩

/-- A semicolon at the end of a target is not written, but a visit does not leave it out. -/
theorem close_added_semicolon :
    let a : AddedAlias := { path := none, name := "Pixel", target := "Coordinate;" }
    let c := ({} : Config).addAlias a.path a.name a.target
    let closed := (close c (Catalogue.build c []).1).1
    let report := (close c (Catalogue.build c []).1).2
    .typeAlias a ∈ closed.addedTypes.values ∧
      a.targetText = "Coordinate" ∧ References.accepts "Coordinate" = true ∧
      ¬ ("Coordinate" ∈ publicNames closed ∨ "Coordinate" ∈ closed.addedTypes.keys ∨
        "Coordinate" ∈ report.unresolved) := by
  intro a c closed report
  refine ⟨mem_addedTypes_close [] "Pixel" rfl, ?_, ?_, ?_⟩
  all_goals decide +kernel

end Surface

end Ambient
