import Ambient.Proofs.TypeExpr.Cuts
import Ambient.Proofs.TypeExpr.Grammar
/-!
# References as the arguments of function types

A function type may list references, and `this` or `new` bound to one. Both readers of function
types take an entry for a binding if a colon stands behind its first word. A reference to a module
has such a colon too, so it is dropped with the bindings; every other reference becomes an argument
of its own.

## Main definitions

* `FunctionTypedef.IsEntry`: a reference, or a binding of `this` or `new` to one.

## Main statements

* `FunctionTypedef.IsEntry.bindsContext_eq`: what is taken for a binding.
* `FunctionTypedef.readArguments_joinWith`: the arguments between the parentheses.
* `FunctionTypedef.readers_references`: both readers give the references without a colon, in order.
* `FunctionTypedef.readers_lose_module_reference`: a reference that is lost.
-/

namespace Ambient

/-! ## Joined strings -/

theorem Text.toList_joinWith_cons (separator s : String) {rest : List String} (filled : rest ≠ []) :
    (joinWith separator (s :: rest)).toList =
      s.toList ++ separator.toList ++ (joinWith separator rest).toList := by
  rw [joinWith_cons separator s filled, String.toList_append, String.toList_append]

/-- Strings with commas between them are listed. -/
theorem DocType.listed_joinWith (entries : List String) :
    Listed (entries.map String.toList) (Text.joinWith ", " entries).toList := by
  have joined : ∀ (s : String) (rest : List String), TypeExpr.Joined ','
      ((s :: rest).map String.toList) (Text.joinWith ", " (s :: rest)).toList := by
    intro s rest
    induction rest generalizing s with
    | nil => exact .single s.toList
    | cons t rest ih =>
      rw [Text.toList_joinWith_cons _ s (List.cons_ne_nil t rest)]
      have whole := TypeExpr.Joined.cons s.toList 0 1 (ih t)
      simpa [Text.pad] using whole
  cases entries with
  | nil => exact .nil
  | cons s rest => exact .joined (joined s rest)

namespace TypeExpr

/-! ## Bindings -/

/-- Without a colon there is no binding. -/
theorem bindsContext_eq_false_of_not_mem {entry : List Char} (noColon : ':' ∉ entry) :
    bindsContext entry = false := by
  have none : ∀ {rest : List Char}, rest.Sublist entry → Text.dropStart? [':'] rest = none := by
    intro rest sub
    exact Text.dropStart?_eq_none_of_head fun first =>
      noColon (sub.subset (List.mem_of_head? first))
  have sub : (Text.trimStart ((Text.trimStart entry).dropWhile Text.isNameChar)).Sublist entry :=
    ((List.dropWhile_sublist _).trans (List.dropWhile_sublist _)).trans (List.dropWhile_sublist _)
  unfold bindsContext
  simp only [none sub, Option.isSome_none, Bool.and_false]

/-- A word with a colon behind it is bound. -/
theorem bindsContext_word {word : List Char} (filled : word ≠ [])
    (chars : ∀ c ∈ word, Text.isNameChar c = true) (rest : List Char) :
    bindsContext (word ++ ':' :: rest) = true := by
  obtain ⟨c, more, rfl⟩ := List.exists_cons_of_ne_nil filled
  have solid := isBlank_of_isNameChar (chars c List.mem_cons_self)
  have bare : Text.trimStart (c :: more ++ ':' :: rest) = c :: more ++ ':' :: rest :=
    Text.trimStart_eq_self rfl solid
  have taken := Text.takeWhile_word chars (c := ':') rfl rest
  have dropped := Text.dropWhile_word chars (c := ':') rfl rest
  unfold bindsContext
  simp only [bare, taken, dropped, Text.trimStart_eq_self (s := ':' :: rest) rfl rfl]
  rfl

/-! ## References -/

/-- Segments of references have no colon. -/
theorem colon_not_mem_path {path : List Char}
    (segments : (Text.splitOn References.isJoint path).all References.isSegment = true) :
    ':' ∉ path := by
  have others : ∀ c ∈ path, c ≠ ':' := by
    refine @Text.forall_mem_of_splitOn References.isJoint _ _ ?_ ?_
    · rintro c joint rfl
      cases joint
    · rintro piece mem c inPiece rfl
      have segment := List.all_eq_true.1 segments piece mem
      cases piece with
      | nil => cases inPiece
      | cons first rest =>
        simp only [References.isSegment, Bool.and_eq_true, List.all_eq_true, Bool.or_eq_true,
          beq_iff_eq] at segment
        rcases List.mem_cons.1 inPiece with rfl | inRest
        · cases segment.1
        · rcases segment.2 ':' inRest with nameChar | dash
          · cases nameChar
          · cases dash
  exact fun mem => others ':' mem rfl

/-- A path starts with an identifier. -/
theorem head?_path_ne {path : List Char}
    (segments : (Text.splitOn References.isJoint path).all References.isSegment = true) {c : Char}
    (other : Text.isNameStart c = false) : path.head? ≠ some c := by
  rintro first
  cases path with
  | nil => cases first
  | cons d path =>
    cases first
    unfold Text.splitOn at segments
    split at segments
    · cases segments
    · split at segments <;>
        simp only [List.all_cons, References.isSegment, other, Bool.false_and] at segments <;>
        cases segments

/-- A reference without a colon is no reference to a module. -/
theorem segments_of_isReference {name : String} (reference : References.isReference name = true)
    (noColon : ':' ∉ name.toList) :
    (Text.splitOn References.isJoint name.toList).all References.isSegment = true := by
  unfold References.isReference at reference
  cases cut : Text.dropStart? "module:".toList name.toList with
  | none =>
    rw [cut] at reference
    exact reference
  | some path =>
    rw [Text.dropStart?_eq_some_iff.1 cut] at noColon
    exact absurd (List.mem_append_left path (by decide)) noColon

/-- A text of base characters that does not start with a dot is an argument without marks. -/
theorem Argument.read_base {s : List Char} (base : IsBase s) (noDots : s.head? ≠ some '.') :
    Argument.read s = ⟨s, false, false⟩ := by
  have noMark := withoutOptionalMark_eq_self base.tight (base.head?_ne rfl) (base.getLast?_ne rfl)
  have single : splitOutside '|' s = [s] :=
    splitOutside_single (base.nested fun c char => ne_of_isBaseChar char rfl) base.tight rfl rfl
      (by decide)
  unfold Argument.read
  simp only [withoutRestMark_eq_self base.tight noDots, noMark, single, List.any_cons, List.any_nil,
    Bool.or_false]

end TypeExpr

namespace FunctionTypedef

open TypeExpr

/-! ## Entries -/

/-- A reference, or `this` or `new` bound to one. -/
inductive IsEntry : String → Prop
  | reference {name : String} (reference : References.isReference name = true) : IsEntry name
  | this {name : String} (reference : References.isReference name = true) :
      IsEntry ("this:" ++ name)
  | new {name : String} (reference : References.isReference name = true) :
      IsEntry ("new:" ++ name)

namespace IsEntry

variable {entry : String}

theorem isBase (h : IsEntry entry) : IsBase entry.toList := by
  cases h with
  | reference reference => exact isBase_of_isReference reference
  | this reference =>
    rw [String.toList_append]
    exact IsBase.append (.of_all (by decide) (by decide)) (isBase_of_isReference reference)
  | new reference =>
    rw [String.toList_append]
    exact IsBase.append (.of_all (by decide) (by decide)) (isBase_of_isReference reference)

/-- An entry with a colon starts with a word and the colon, an entry without is a path. -/
theorem word_or_path (h : IsEntry entry) :
    (∃ word rest, entry.toList = word ++ ':' :: rest ∧ word ≠ [] ∧
      ∀ c ∈ word, Text.isNameChar c = true) ∨
    ':' ∉ entry.toList ∧ References.isReference entry = true := by
  have bound : ∀ (word name : String), word.toList ≠ [] → word.toList.all Text.isNameChar = true →
      ∃ w rest, (word ++ ":" ++ name).toList = w ++ ':' :: rest ∧ w ≠ [] ∧
        ∀ c ∈ w, Text.isNameChar c = true := by
    intro word name filled chars
    refine ⟨word.toList, name.toList, ?_, filled, List.all_eq_true.1 chars⟩
    rw [String.toList_append, String.toList_append, List.append_assoc]
    rfl
  cases h with
  | reference reference =>
    by_cases colon : ':' ∈ entry.toList
    · -- The only colon of a reference is that of a module.
      have kept := reference
      unfold References.isReference at kept
      cases cut : Text.dropStart? "module:".toList entry.toList with
      | none =>
        rw [cut] at kept
        exact absurd colon (colon_not_mem_path kept)
      | some path =>
        have whole := Text.dropStart?_eq_some_iff.1 cut
        have chars : "module".toList.all Text.isNameChar = true := by decide
        exact .inl ⟨"module".toList, path, by rw [whole]; rfl, by decide, List.all_eq_true.1 chars⟩
    · exact .inr ⟨colon, reference⟩
  | @this name reference => exact .inl (bound "this" name (by decide) (by decide))
  | @new name reference => exact .inl (bound "new" name (by decide) (by decide))

/-- **What is taken for a binding**: every entry with a colon. -/
theorem bindsContext_eq (h : IsEntry entry) :
    bindsContext entry.toList = entry.toList.contains ':' := by
  rcases h.word_or_path with ⟨word, rest, whole, filled, chars⟩ | ⟨noColon, -⟩
  · rw [whole, bindsContext_word filled chars]
    simp
  · rw [bindsContext_eq_false_of_not_mem noColon]
    simpa using noColon

/-- An entry without a colon is an argument without marks. -/
theorem read_eq (h : IsEntry entry) (noColon : entry.toList.contains ':' = false) :
    TypeExpr.Argument.read entry.toList = ⟨entry.toList, false, false⟩ := by
  have noColon : ':' ∉ entry.toList := by simpa using noColon
  rcases h.word_or_path with ⟨word, rest, whole, -⟩ | ⟨-, reference⟩
  · rw [whole] at noColon
    simp at noColon
  · exact TypeExpr.Argument.read_base h.isBase
      (head?_path_ne (segments_of_isReference reference noColon) rfl)

end IsEntry

/-! ## Both readers -/

/-- The alternatives of a text of base characters: there is one. -/
theorem alternatives_base {s : List Char} (base : IsBase s) :
    alternatives s = [String.ofList s] := by
  have single : splitOutside '|' s = [s] :=
    splitOutside_single (base.nested fun c char => ne_of_isBaseChar char rfl) base.tight rfl rfl
      (by decide)
  have noMark := withoutOptionalMark_eq_self base.tight (base.head?_ne rfl) (base.getLast?_ne rfl)
  unfold alternatives
  rw [single, List.map_singleton, noMark]

/-- The parameter that a reference makes at a position. -/
def referenceParam (index : Nat) (name : String) : Param where
  type := some ⟨[name]⟩
  name := some ("arg" ++ toString index)

/-- Arguments without marks make parameters that are named by position. -/
theorem paramsFrom_bases {names : List String} (bases : ∀ name ∈ names, IsBase name.toList)
    (index : Nat) :
    paramsFrom index (names.map fun name => ⟨name.toList, false, false⟩) =
      names.mapIdx fun i name => referenceParam (index + i) name := by
  induction names generalizing index with
  | nil => rfl
  | cons name rest ih =>
    rw [List.forall_mem_cons] at bases
    have later : ∀ i, index + 1 + i = index + (i + 1) := by omega
    rw [List.map_cons, paramsFrom, alternatives_base bases.1, String.ofList_toList, ih bases.2,
      List.mapIdx_cons]
    simp only [later]
    rfl

variable {entries : List String} (each : ∀ entry ∈ entries, IsEntry entry)

include each

/-- The references without a colon are the arguments. -/
theorem readArguments_joinWith :
    readArguments (Text.joinWith ", " entries).toList =
      (entries.filter fun entry => !entry.toList.contains ':').map fun entry =>
        ⟨entry.toList, false, false⟩ := by
  have pieces : splitOutside ',' (Text.joinWith ", " entries).toList =
      entries.map String.toList := by
    refine (DocType.listed_joinWith entries).splitOutside_eq ?_ ?_ <;>
      rw [List.forall_mem_map] <;> intro entry mem
    · exact (each entry mem).isBase.nested fun c char => ne_of_isBaseChar char rfl
    · exact (each entry mem).isBase.tight
  have kept : (entries.map String.toList).filter (fun entry => !bindsContext entry) =
      (entries.filter fun entry => !entry.toList.contains ':').map String.toList := by
    rw [List.filter_map]
    congr 1
    refine List.filter_congr fun entry mem => ?_
    rw [Function.comp_apply, (each entry mem).bindsContext_eq]
  rw [readArguments, pieces, kept, List.map_map]
  refine List.map_congr_left fun entry mem => ?_
  obtain ⟨given, noColon⟩ := List.mem_filter.1 mem
  exact (each entry given).read_eq (by simpa using noColon)

/-- **Both readers give the references without a colon.** Of the references between the parentheses
of a function type, and of the bindings of `this` and `new`, exactly those without a colon become
arguments, in order and without marks. -/
theorem readers_references :
    let source := "function(" ++ Text.joinWith ", " entries ++ ")"
    let kept := entries.filter fun entry => !entry.toList.contains ':'
    Signature.read? source.toList =
        some ⟨kept.map fun entry => ⟨entry.toList, false, false⟩, none⟩ ∧
      readSignature? source = some ⟨kept.mapIdx referenceParam, []⟩ := by
  intro source kept
  have arguments := readArguments_joinWith each
  have whole : source.toList =
      "function".toList ++ '(' :: ((Text.joinWith ", " entries).toList ++ [')']) := by
    simp [source]
  have listed := DocType.listed_joinWith entries
  have nested : Nested (fun _ => True) (Text.joinWith ", " entries).toList := by
    refine listed.nested ?_
    rw [List.forall_mem_map]
    exact fun entry mem => (each entry mem).isBase.nested fun c char => ne_of_isBaseChar char rfl
  have oneLine : '\n' ∉ (Text.joinWith ", " entries).toList := by
    refine listed.not_mem ?_ (by decide) (by decide)
    rw [List.forall_mem_map]
    exact fun entry mem => (each entry mem).isBase.not_mem rfl
  constructor
  · rw [whole, Signature.read?_function nested, arguments]
    rfl
  · have tight : Text.Tight source.toList := by
      rw [whole]
      exact ⟨⟨'f', rfl, rfl⟩, ⟨')', getLast?_wrapped _ _ _ _, rfl⟩⟩
    have bases : ∀ name ∈ kept, IsBase name.toList := fun name mem =>
      (each name (List.mem_filter.1 mem).1).isBase
    have params := paramsFrom_bases bases 0
    simp only [Nat.zero_add] at params
    unfold readSignature?
    rw [tight.trim_eq, whole, cutSignature?_closed nested.isBalanced oneLine]
    simp only [Option.bind_eq_bind, Option.bind_some, arguments]
    rw [params]
    rfl

omit each in
/-- References with a dash and with joints, one of them to a module, and a binding. -/
theorem readers_references_mixed :
    let entries := ["ol/Map~Options", "module:ol/View", "this:Foo.Bar", "A#b-c"]
    (∀ entry ∈ entries, IsEntry entry) ∧
      Signature.read? ("function(" ++ Text.joinWith ", " entries ++ ")").toList =
        some ⟨[⟨"ol/Map~Options".toList, false, false⟩, ⟨"A#b-c".toList, false, false⟩], none⟩ ∧
      readSignature? ("function(" ++ Text.joinWith ", " entries ++ ")") =
        some ⟨[referenceParam 0 "ol/Map~Options", referenceParam 1 "A#b-c"], []⟩ := by
  intro entries
  have each : ∀ entry ∈ entries, IsEntry entry := by
    simp only [entries, List.forall_mem_cons]
    refine ⟨.reference (by decide), .reference (by decide), @IsEntry.this "Foo.Bar" (by decide),
      .reference (by decide), fun entry mem => absurd mem List.not_mem_nil⟩
  exact ⟨each, readers_references each⟩

omit each in
/-- A reference to a module, alone between the parentheses, is lost. -/
theorem readers_lose_module_reference :
    References.isReference "module:ol/Map" = true ∧
      Signature.read? "function(module:ol/Map)".toList = some ⟨[], none⟩ ∧
      readSignature? "function(module:ol/Map)" = some ⟨[], []⟩ :=
  ⟨by decide, by decide, rfl⟩

end FunctionTypedef

end Ambient
