import Ambient.Declaration.Mentions
import Ambient.FunctionTypedef
import Ambient.Proofs.Text
/-!
# Expanding the typedefs of function types

A typedef of a function type is expanded once. Its comment gets a mark, and by that mark both the
next expansion and the declaration made of the record know that its signature has been read. Every
record takes one of three ways, and what an expansion may change, what it reports and what a second
one does follow from them.

## Main definitions

* `FunctionTypedef.Expands`: the three ways, each with what it gives.
* `FunctionTypedef.Marks`: a comment with the mark put into it.
* `FunctionTypedef.typedefOfText`: a typedef with a given type and nothing else.

## Main statements

* `FunctionTypedef.expands_expand`: every record takes one of the three ways.
* `FunctionTypedef.marks_withMark`: where the mark is put.
* `FunctionTypedef.expand_ne_iff`: which records are changed.
* `FunctionTypedef.expand_idempotent`: an expansion touches nothing but the signature and the
  comment, marks what it changes, and is repeated without effect.
-/

namespace Ambient

namespace FunctionTypedef

/-! ## The mark -/

/-- The mark put into a comment: before the last end of a comment in it, or as its last word. -/
inductive Marks : String → String → Prop
  | beforeEnd (before after : String) (last : Text.contains "*/" after = false) :
      Marks (before ++ "*/" ++ after) (before ++ mark ++ " " ++ "*/" ++ after)
  | alone : Marks "" mark
  | atEnd {comment : String} (filled : comment ≠ "")
      (endless : Text.contains "*/" comment = false) :
      Marks comment (comment ++ " " ++ mark)

/-- **Where the mark is put.** -/
theorem marks_withMark (comment : String) : Marks comment (withMark comment) := by
  unfold withMark
  split
  · rename_i before ending around
    obtain ⟨after, whole, rfl, later⟩ := Text.aroundLast?_eq_some around
    have last : Text.contains "*/" (String.ofList after) = false := by
      have text : (String.ofList after).toList = after := String.toList_ofList
      rw [List.singleton_append, Text.occursIn_cons, Bool.or_eq_false_iff] at later
      rw [Text.contains, text]
      exact later.2
    have ending : String.ofList ('*' :: (['/'] ++ after)) = "*/" ++ String.ofList after :=
      @String.ofList_append ['*', '/'] after
    have same : comment = String.ofList before ++ "*/" ++ String.ofList after := by
      rw [String.append_assoc, ← ending, ← String.ofList_append, ← whole, String.ofList_toList]
    rw [ending, ← String.append_assoc, same]
    exact .beforeEnd _ _ last
  · rename_i none
    split
    · rename_i empty
      rw [String.isEmpty_iff] at empty
      rw [empty]
      exact .alone
    · rename_i filled
      rw [String.isEmpty_iff] at filled
      exact .atEnd filled (Text.aroundLast?_eq_none_iff.1 none)

theorem contains_withMark (comment : String) : Text.contains mark (withMark comment) = true := by
  have marks := marks_withMark comment
  generalize withMark comment = marked at marks
  cases marks with
  | beforeEnd before after =>
    have whole := Text.occursIn_append before.toList mark.toList (" " ++ "*/" ++ after).toList
    simpa [Text.contains, String.toList_append] using whole
  | alone => decide
  | atEnd =>
    have whole := Text.occursIn_append (comment ++ " ").toList mark.toList []
    simpa [Text.contains, String.toList_append] using whole

/-! ## Typedefs without a comment -/

theorem annotation?_empty : annotation? "" = none := by
  unfold annotation?
  rw [String.toList_empty, flatten]
  rfl

/-- A typedef whose type is the given text. -/
def typedefOfText (text : String) : Doclet where
  name := "N"
  longname := "N"
  kind := .typedef
  type := some ⟨[text]⟩

theorem source_typedefOfText (text : String) :
    source (typedefOfText text) = Text.trimmed text := by
  have unannotated : annotation? (typedefOfText text).comment = none := annotation?_empty
  unfold source
  rw [unannotated]
  rfl

/-! ## The three ways -/

/-- What is made of a record: it is kept, its signature cannot be read, or it is expanded. -/
inductive Expands (d : Doclet) : Doclet × List Finding → Prop
  | kept (settled : isFunctionShaped d = false ∨ isMarked d = true ∨ source d = "function") :
      Expands d (d, [])
  | unread (shaped : isFunctionShaped d = true) (unmarked : isMarked d = false)
      (named : source d ≠ "function") (unreadable : readSignature? (source d) = none) :
      Expands d (d, [unmatched d])
  | expanded (shaped : isFunctionShaped d = true) (unmarked : isMarked d = false)
      {signature : Recovered} (found : readSignature? (source d) = some signature) :
      Expands d ({ d with
        params := signature.params
        returns := signature.returns
        comment := withMark d.comment }, [])

theorem readSignature?_function : readSignature? "function" = none := rfl

/-- **Every record takes one of three ways.** -/
theorem expands_expand (d : Doclet) : Expands d (expand d) := by
  unfold expand
  split
  · rename_i settled
    rw [Bool.or_eq_true, Bool.not_eq_true'] at settled
    exact .kept (settled.imp_right .inl)
  · rename_i candidate
    simp only [Bool.or_eq_true, Bool.not_eq_true', not_or, Bool.not_eq_false, Bool.not_eq_true]
      at candidate
    split
    · rename_i word
      exact .kept (.inr (.inr (beq_iff_eq.1 word)))
    · rename_i named
      rw [beq_iff_eq] at named
      split
      · rename_i signature found
        exact .expanded candidate.1 candidate.2 found
      · rename_i unreadable
        exact .unread candidate.1 candidate.2 named unreadable

variable {d : Doclet}

/-! ## What an expansion keeps -/

/-- Expansion changes the signature and the comment of a record at most. -/
theorem expand_eq (d : Doclet) :
    ∃ params returns comment, (expand d).1 = { d with params, returns, comment } := by
  have way := expands_expand d
  generalize expand d = result at way
  cases way with
  | kept => exact ⟨d.params, d.returns, d.comment, rfl⟩
  | unread => exact ⟨d.params, d.returns, d.comment, rfl⟩
  | @expanded _ _ signature => exact ⟨signature.params, signature.returns, withMark d.comment, rfl⟩

/-- Only typedefs are expanded. -/
theorem expand_of_ne_typedef (other : d.kind ≠ .typedef) : expand d = (d, []) := by
  have unshaped : isFunctionShaped d = false := by simp [isFunctionShaped, other]
  simp [expand, unshaped]

/-- All that is found in an expansion is that the signature could not be read. -/
theorem eq_unmatched_of_mem_expand {f : Finding} (found : f ∈ (expand d).2) : f = unmatched d := by
  have way := expands_expand d
  generalize expand d = result at way found
  cases way with
  | unread => exact List.mem_singleton.1 found
  | kept => cases found
  | expanded => cases found

theorem severity_unmatched (d : Doclet) : (unmatched d).severity = .info := rfl

/-- What is found in an expansion is no warning. -/
theorem countWarnings_expand (d : Doclet) : Finding.countWarnings (expand d).2 = 0 := by
  rw [Finding.countWarnings, List.countP_eq_zero]
  intro f found
  rw [eq_unmatched_of_mem_expand found, severity_unmatched]
  decide

theorem longname_expand (d : Doclet) : (expand d).1.longname = d.longname := by
  obtain ⟨params, returns, comment, same⟩ := expand_eq d
  rw [same]

theorem kind_expand (d : Doclet) : (expand d).1.kind = d.kind := by
  obtain ⟨params, returns, comment, same⟩ := expand_eq d
  rw [same]

theorem isFunctionShaped_expand (d : Doclet) :
    isFunctionShaped (expand d).1 = isFunctionShaped d := by
  obtain ⟨params, returns, comment, same⟩ := expand_eq d
  rw [same]
  rfl

/-! ## Expanding twice -/

/-- What is marked stays as it is. -/
theorem expand_of_isMarked (marked : isMarked d = true) : expand d = (d, []) := by
  rw [expand, marked, Bool.or_true, if_pos rfl]

/-- A typedef whose signature is read gets its parameters and its mark. -/
theorem expand_of_read (shaped : isFunctionShaped d = true) (unmarked : isMarked d = false)
    {signature : Recovered} (found : readSignature? (source d) = some signature) :
    expand d = ({ d with
      params := signature.params
      returns := signature.returns
      comment := withMark d.comment }, []) := by
  have named : source d ≠ "function" := by
    intro word
    rw [word, readSignature?_function] at found
    cases found
  have way := expands_expand d
  generalize expand d = result at way
  cases way with
  | kept settled => simp [shaped, unmarked, named] at settled
  | unread _ _ _ unreadable =>
    rw [unreadable] at found
    cases found
  | expanded _ _ found' =>
    cases found'.symm.trans found
    rfl

/-- A typedef of a function type, other than the bare word, is reported unless its signature is
read. -/
theorem findings_expand_eq_nil_iff (shaped : isFunctionShaped d = true)
    (unmarked : isMarked d = false) (named : source d ≠ "function") :
    (expand d).2 = [] ↔ (readSignature? (source d)).isSome = true := by
  have way := expands_expand d
  generalize expand d = result at way
  cases way with
  | kept settled => simp [shaped, unmarked, named] at settled
  | unread _ _ _ unreadable => simp [unreadable]
  | expanded _ _ found => simp [found]

/-- **What is changed**: the records of the right form, without a mark, whose signature is read. -/
theorem expand_ne_iff (d : Doclet) :
    (expand d).1 ≠ d ↔ isFunctionShaped d = true ∧ isMarked d = false ∧
      ∃ signature, readSignature? (source d) = some signature := by
  constructor
  · intro changed
    have way := expands_expand d
    generalize expand d = result at way changed
    cases way with
    | kept => exact absurd rfl changed
    | unread => exact absurd rfl changed
    | @expanded shaped unmarked signature found => exact ⟨shaped, unmarked, signature, found⟩
  · rintro ⟨shaped, unmarked, signature, found⟩ same
    rw [expand_of_read shaped unmarked found] at same
    have comment : withMark d.comment = d.comment := congrArg Doclet.comment same
    have marked := contains_withMark d.comment
    rw [comment] at marked
    exact absurd (unmarked.symm.trans marked) Bool.false_ne_true

/-- **Expanding twice.** An expansion keeps the record and reports at most that its signature is
unknown, or it reports nothing and replaces the signature and the comment. The latter happens if and
only if the record has the form of a function type, bears no mark and has a signature that can be
read; then the comment gains the mark, and the typedef of the record has a known signature. A second
expansion changes nothing, and reports again what the first one reported of a kept record. -/
theorem expand_idempotent (d : Doclet) :
    let result := (expand d).1
    let found := (expand d).2
    ((result = d ∧ found.length ≤ 1 ∧ ∀ f ∈ found, f.severity = .info) ∨
      ((∃ signature, readSignature? (source d) = some signature ∧ result = { d with
          params := signature.params
          returns := signature.returns
          comment := withMark d.comment }) ∧ found = [])) ∧
    (result ≠ d ↔ isFunctionShaped d = true ∧ isMarked d = false ∧
      ∃ signature, readSignature? (source d) = some signature) ∧
    (result ≠ d →
      Marks d.comment result.comment ∧
      isMarked result = true ∧ isFunctionShaped result = true ∧
      (∀ c, ∃ isPublic, Declaration.typedefOf result c = .typedef result isPublic []) ∧
      result.hasSignature = true ∧
      expand result = (result, [])) ∧
    (result = d → expand result = (result, found)) := by
  intro result found
  refine ⟨?_, expand_ne_iff d, ?_, ?_⟩
  · have way := expands_expand d
    change Expands d (result, found) at way
    generalize result = result at way
    generalize found = found at way
    cases way with
    | kept => exact .inl ⟨rfl, Nat.zero_le 1, List.forall_mem_nil _⟩
    | unread =>
      exact .inl ⟨rfl, Nat.le_refl 1, List.forall_mem_singleton.2 (severity_unmatched d)⟩
    | expanded _ _ read => exact .inr ⟨⟨_, read, rfl⟩, rfl⟩
  · intro changed
    obtain ⟨shaped, unmarked, signature, read⟩ := (expand_ne_iff d).1 changed
    have comment : result.comment = withMark d.comment :=
      congrArg (fun way => way.1.comment) (expand_of_read shaped unmarked read)
    have marked : isMarked result = true := by
      rw [isMarked, comment]
      exact contains_withMark d.comment
    refine ⟨comment ▸ marks_withMark d.comment, marked, (isFunctionShaped_expand d).trans shaped,
      fun c => ⟨_, rfl⟩, ?_, expand_of_isMarked marked⟩
    rw [Doclet.hasSignature, marked, Bool.true_or]
  · intro same
    rw [same]
    exact Prod.ext same rfl

/-- A typedef without a comment gets one, and is kept from then on. -/
theorem expand_idempotent_typedef :
    let d := typedefOfText "function(A): B"
    let result := (expand d).1
    result ≠ d ∧ Marks "" result.comment ∧ result.hasSignature = true ∧
      expand result = (result, []) := by
  intro d result
  have named : source d = "function(A): B" := by
    rw [source_typedefOfText]
    decide
  have read : ∃ signature, readSignature? (source d) = some signature := by
    rw [← Option.isSome_iff_exists, named]
    decide
  obtain ⟨-, changes, marks, -⟩ := expand_idempotent d
  have changed : result ≠ d := changes.2 ⟨by decide, by decide, read⟩
  obtain ⟨comment, -, -, -, signature, again⟩ := marks changed
  exact ⟨changed, comment, signature, again⟩

end FunctionTypedef

end Ambient
