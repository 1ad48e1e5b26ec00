import Ambient.Proofs.TypeExpr.Alternatives
import Ambient.Proofs.TypeExpr.Bases
import Ambient.Proofs.Visit
/-!
# Texts that are read as one name

A text of base characters and semicolons has nothing in it that a pattern of type expressions could
take apart. It is read as one name, unless a replacement is configured for it or it spells the word
`array`. So it mentions itself or nothing.

## Main definitions

* `TypeExpr.IsPlain`: a text of base characters and semicolons with something in it.
* `Config.ReadsAs`: a raw text is read as a name.

## Main statements

* `TypeExpr.IsPlain.form`: the form of such a text.
* `Config.referencesIn_of_isPlain`: the names in it.
* `Config.referencesIn_of_accepts`: the names in a text that is a reference up to semicolons.
-/

namespace Ambient

namespace TypeExpr

/-- A text of base characters and semicolons with something in it. -/
structure IsPlain (s : List Char) : Prop where
  filled : s ≠ []
  chars : ∀ c ∈ s, isBaseChar c = true ∨ c = ';'

namespace IsPlain

variable {s : List Char}

theorem ofBase (h : IsBase s) : IsPlain s where
  filled := h.filled
  chars := fun c mem => Or.inl (h.chars c mem)

theorem append_semicolons (h : IsPlain s) {t : List Char} (semicolons : ∀ c ∈ t, c = ';') :
    IsPlain (s ++ t) where
  filled := fun empty => h.filled (List.append_eq_nil_iff.1 empty).1
  chars := by
    intro c mem
    rcases List.mem_append.1 mem with inside | behind
    · exact h.chars c inside
    · exact Or.inr (semicolons c behind)

theorem not_mem (h : IsPlain s) {c : Char} (noBase : isBaseChar c = false) (other : c ≠ ';') :
    c ∉ s := by
  intro mem
  rcases h.chars c mem with base | semicolon
  · rw [noBase] at base
    cases base
  · exact other semicolon

theorem head?_ne (h : IsPlain s) {c : Char} (noBase : isBaseChar c = false) (other : c ≠ ';') :
    s.head? ≠ some c :=
  fun first => h.not_mem noBase other (List.mem_of_head? first)

theorem getLast?_ne (h : IsPlain s) {c : Char} (noBase : isBaseChar c = false) (other : c ≠ ';') :
    s.getLast? ≠ some c :=
  fun last => h.not_mem noBase other (List.mem_of_getLast? last)

theorem isBlank_of_mem (h : IsPlain s) {c : Char} (mem : c ∈ s) : Text.isBlank c = false := by
  rcases h.chars c mem with base | rfl
  · exact isBlank_of_isBaseChar base
  · rfl

theorem isOpening_of_mem (h : IsPlain s) {c : Char} (mem : c ∈ s) : isOpening c = false := by
  rcases h.chars c mem with base | rfl
  · exact isOpening_of_isBaseChar base
  · rfl

theorem isClosing_of_mem (h : IsPlain s) {c : Char} (mem : c ∈ s) : isClosing c = false := by
  rcases h.chars c mem with base | rfl
  · exact isClosing_of_isBaseChar base
  · rfl

theorem tight (h : IsPlain s) : Text.Tight s where
  first := ⟨s.head h.filled, List.head?_eq_some_head h.filled,
    h.isBlank_of_mem (List.head_mem h.filled)⟩
  last := ⟨s.getLast h.filled, List.getLast?_eq_some_getLast h.filled,
    h.isBlank_of_mem (List.getLast_mem h.filled)⟩

/-- **The form of a plain text.** No pattern takes it apart. -/
theorem form (h : IsPlain s) :
    Form.of s = if Form.isArrayWord s then .untypedArray else .named := by
  have noGeneric : cutGeneric? s = none :=
    cutGeneric?_eq_none_of_not_mem (h.not_mem rfl (by decide))
  have noElement : elementOf? s = none :=
    elementOf?_eq_none (h.getLast?_ne rfl (by decide)) noGeneric
  have noCall : s.find? isOpening ≠ some '(' := by
    intro found
    have opening := List.find?_some found
    rw [h.isOpening_of_mem (List.mem_of_find?_eq_some found)] at opening
    cases opening
  have noFunction : Signature.read? s = none := Signature.read?_eq_none_of_find? noCall
  by_cases array : Form.isArrayWord s = true
  · rw [if_pos array]
    unfold Form.of Form.ofPlain
    simp only [noElement, noGeneric, noFunction, array, if_true]
  · rw [if_neg array]
    have unclaimed : Form.Unclaimed s :=
      ⟨noElement, noGeneric, noFunction, Bool.eq_false_iff.2 array⟩
    have nested : Nested (· ≠ '|') s :=
      .of_forall (fun c => h.isOpening_of_mem) (fun c => h.isClosing_of_mem) fun c mem bar =>
        h.not_mem (c := c) (bar ▸ rfl) (bar ▸ by decide) mem
    have single := splitOutside_single nested h.tight rfl rfl (by decide)
    exact unclaimed.of_named single
      (insideBrackets?_eq_none_of_last (h.getLast?_ne rfl (by decide)))
      (insideBrackets?_eq_none_of_last (h.getLast?_ne rfl (by decide)))
      (withoutMark?_eq_none (h.head?_ne rfl (by decide)) (h.head?_ne rfl (by decide))
        (h.getLast?_ne rfl (by decide)))

end IsPlain

end TypeExpr

namespace Config

open TypeExpr

/-- A raw text is read as a name: nothing but blanks stands around the name, and neither the
replacements nor the word `array` get in its way. -/
structure ReadsAs (c : Config) (raw name : String) : Prop where
  trimmed : Text.trimmed raw = name
  unreplaced : c.replacement? name = none
  noArray : Form.isArrayWord name.toList = false

theorem readsAs_iff {c : Config} {raw name : String} :
    c.ReadsAs raw name ↔ Text.trimmed raw = name ∧ c.replacement? name = none ∧
      Form.isArrayWord name.toList = false := by
  constructor
  · intro h
    exact ⟨h.trimmed, h.unreplaced, h.noArray⟩
  · rintro ⟨trimmed, unreplaced, noArray⟩
    exact ⟨trimmed, unreplaced, noArray⟩

instance (c : Config) (raw name : String) : Decidable (c.ReadsAs raw name) :=
  decidable_of_iff' _ readsAs_iff

/-- What is met when a plain text is read: one name or one untyped array, if it is not replaced. -/
theorem events_of_isPlain (c : Config) {raw : String} (plain : IsPlain (Text.trim raw.toList)) :
    (c.typeText raw).events =
      if (c.replacement? (Text.trimmed raw)).isSome then []
      else if Form.isArrayWord (Text.trim raw.toList) then [.untypedArray (Text.trimmed raw)]
      else [.reference (Text.trimmed raw)] := by
  show (read c.replacement? raw.toList).events = _
  rw [read_eq, plain.form, Text.trimmed]
  cases c.replacement? (String.ofList (Text.trim raw.toList)) with
  | some text => rfl
  | none =>
    by_cases array : Form.isArrayWord (Text.trim raw.toList) = true
    · rw [if_pos array, if_pos array]
      rfl
    · rw [if_neg array, if_neg array]
      rfl

/-- **The names in a plain text.** There is the text itself without its outer blanks, or none. -/
theorem referencesIn_of_isPlain (c : Config) {raw : String}
    (plain : IsPlain (Text.trim raw.toList)) :
    c.referencesIn { raw, bound := [] } =
      if c.ReadsAs raw (Text.trimmed raw) ∧ References.accepts (Text.trimmed raw) = true then
        [Text.trimmed raw]
      else [] := by
  have chars : (Text.trimmed raw).toList = Text.trim raw.toList := String.toList_ofList
  have twice : Text.trimmed (Text.trimmed raw) = Text.trimmed raw := by
    rw [Text.trimmed, chars, plain.tight.trim_eq, Text.trimmed]
  have reads : c.ReadsAs raw (Text.trimmed raw) ↔
      c.replacement? (Text.trimmed raw) = none ∧
        Form.isArrayWord (Text.trim raw.toList) = false := by
    rw [readsAs_iff, chars]
    exact and_iff_right rfl
  unfold referencesIn References.accepted
  rw [c.events_of_isPlain plain]
  by_cases replaced : (c.replacement? (Text.trimmed raw)).isSome = true
  · have blocked : ¬ c.ReadsAs raw (Text.trimmed raw) := by
      intro h
      rw [h.unreplaced] at replaced
      cases replaced
    simp [replaced, blocked, Event.references]
  · have free := Option.not_isSome_iff_eq_none.1 replaced
    by_cases array : Form.isArrayWord (Text.trim raw.toList) = true
    · simp [reads, free, array, Event.references]
    · by_cases accepted : References.accepts (Text.trimmed raw) = true
      · simp [reads, free, array, accepted, twice, Event.references]
      · simp [free, array, accepted, twice, Event.references]

/-- No reference ends with a semicolon. -/
theorem accepts_append_semicolons {name : String} {t : List Char} (semicolons : ∀ c ∈ t, c = ';')
    (filled : t ≠ []) : References.accepts (name ++ String.ofList t) = false := by
  rw [← Bool.not_eq_true]
  intro accepted
  have base := isBase_of_isReference (References.accepts_iff.1 accepted).2
  obtain ⟨c, mem⟩ := List.exists_mem_of_ne_nil t filled
  refine base.not_mem (c := ';') rfl ?_
  rw [String.toList_append, String.toList_ofList]
  exact List.mem_append_right _ (semicolons c mem ▸ mem)

/-- **The names in a text that is a reference up to semicolons.** The text is read as that reference
or has no names in it. -/
theorem referencesIn_of_accepts (c : Config) {raw name : String} {t : List Char}
    (accepted : References.accepts name = true) (semicolons : ∀ c ∈ t, c = ';')
    (bare : Text.trim raw.toList = name.toList ++ t) :
    c.referencesIn { raw, bound := [] } = if c.ReadsAs raw name then [name] else [] := by
  have base := isBase_of_isReference (References.accepts_iff.1 accepted).2
  have whole : Text.trimmed raw = name ++ String.ofList t := by
    rw [Text.trimmed, bare, String.ofList_append, String.ofList_toList]
  have plain : IsPlain (Text.trim raw.toList) := by
    rw [bare]
    exact (IsPlain.ofBase base).append_semicolons semicolons
  rw [c.referencesIn_of_isPlain plain]
  by_cases none : t = []
  · have same : Text.trimmed raw = name := by simpa [none] using whole
    simp [same, accepted]
  · have rejected : References.accepts (Text.trimmed raw) = false := by
      rw [whole]
      exact accepts_append_semicolons semicolons none
    have differs : ¬ c.ReadsAs raw name := by
      intro h
      rw [h.trimmed, accepted] at rejected
      cases rejected
    simp [rejected, differs]

/-- The names in a reference. -/
theorem referencesIn_reference (c : Config) {name : String}
    (accepted : References.accepts name = true) :
    c.referencesIn { raw := name, bound := [] } = if c.ReadsAs name name then [name] else [] := by
  have base := isBase_of_isReference (References.accepts_iff.1 accepted).2
  have bare : Text.trim name.toList = name.toList ++ [] := by
    rw [base.tight.trim_eq, List.append_nil]
  exact c.referencesIn_of_accepts accepted (fun _ => List.not_mem_nil.elim) bare

end Config

end Ambient
