import GlimmerFormat.Printing.Reading
import GlimmerFormat.Proofs.Text.Runs

/-!
# Text in words

Free text is split at its blanks, and what becomes of it is a fill: the words are the contents, a
`line` stands between any two of them, and none before the first or behind the last.  Where a text
is found to be blank instead, the same characters count as blanks, so a text is left out just when
it has no word.

* `Document.Alternates`: the parts of a fill as contents held apart by `line`.
* `Document.paragraph_exact`: which fill a text becomes, when it is empty, and what it is for texts
  that are joined by blanks.
-/

namespace GlimmerFormat

namespace Document

/-- Every other one of the parts of a fill, beginning with the first. -/
def everyOther : List Document → List Document
  | [] => []
  | [d] => [d]
  | d :: _ :: docs => d :: everyOther docs

/-- Contents with a `line` between any two of them, and with none before the first or behind the
last. -/
structure Alternates (contents parts : List Document) : Prop where
  contents_eq : everyOther parts = contents
  separators : ∀ d ∈ everyOther parts.tail, d = line
  ends : parts = [] ∨ parts.length % 2 = 1

/-- What a fill holds apart. -/
def contents : Document → List Document
  | .fill parts => everyOther parts
  | _ => []

/-! ## Parts of a fill -/

/-- Every other one of contents and separators, from the first on, gives the contents back. -/
lemma everyOther_intersperse (separator : Document) (docs : List Document) :
    everyOther (docs.intersperse separator) = docs := by
  induction docs with
  | nil => rfl
  | cons d docs ih =>
    cases docs with
    | nil => rfl
    | cons e docs => rw [List.intersperse_cons_cons, everyOther, ih]

/-- All that stands between contents is the separator. -/
lemma eq_of_mem_separators {separator d : Document} {docs : List Document}
    (h : d ∈ everyOther (docs.intersperse separator).tail) : d = separator := by
  induction docs with
  | nil => cases h
  | cons e docs ih =>
    cases docs with
    | nil => cases h
    | cons f docs =>
      -- Behind the first content stands a separator, and behind that what the others become.
      rw [List.intersperse_cons_cons, List.tail_cons] at h
      cases hothers : (f :: docs).intersperse separator with
      | nil => simpa [hothers, everyOther] using h
      | cons g parts =>
        rw [hothers, everyOther, List.mem_cons] at h
        rw [hothers, List.tail_cons] at ih
        rcases h with rfl | h
        · rfl
        · exact ih h

/-- Contents with lines between them alternate with these. -/
lemma alternates_intersperse (docs : List Document) :
    Alternates docs (docs.intersperse line) where
  contents_eq := everyOther_intersperse line docs
  separators _ h := eq_of_mem_separators h
  ends := by
    cases docs with
    | nil => exact .inl rfl
    | cons d docs =>
      refine .inr ?_
      rw [List.length_intersperse, List.length_cons]
      omega

/-- Contents with separators between them are nothing exactly if there are none. -/
lemma intersperse_eq_nil_iff (separator : Document) (docs : List Document) :
    docs.intersperse separator = [] ↔ docs = [] := by
  constructor
  · intro h
    rw [← everyOther_intersperse separator docs, h]
    rfl
  · rintro rfl
    rfl

/-! ## Texts joined by blanks -/

/-- The contents of a paragraph are the words of its text. -/
lemma contents_paragraph (s : String) : (paragraph s).contents = wordTexts s :=
  everyOther_intersperse line (wordTexts s)

/-- A gap of blanks parts the words in front of it from those behind it. -/
lemma wordTexts_append_blank {gap : String} (hne : gap ≠ "")
    (hgap : Text.isBlankText gap = true) (s t : String) :
    wordTexts (s ++ gap ++ t) = wordTexts s ++ wordTexts t := by
  have hchars : gap.toList ≠ [] := by simpa using hne
  have hblank : ∀ b ∈ gap.toList, Text.isBlank b = true := List.all_eq_true.mp hgap
  rw [wordTexts, String.toList_append, String.toList_append,
    Text.words_append_blank hchars hblank, List.map_append]
  rfl

/-! ## Which fill a text becomes -/

/-- A text becomes the fill of its maximal runs of characters that are not blank, with a `line`
between any two; this fill is empty just when the text would be left out as blank, and if blanks
stand between two texts, the words of the one are followed by those of the other. -/
theorem paragraph_exact (s : String) :
    (∃ parts starts ws, paragraph s = .fill parts ∧ Text.AreRuns s.toList starts ws ∧
      Alternates (ws.map fun w => .text (String.ofList w)) parts ∧
      (parts = [] ↔ (Value.node (.text (.str s))).isBlankNode = .ok true)) ∧
    ∀ gap t, gap ≠ "" → Text.isBlankText gap = true →
      (paragraph (s ++ gap ++ t)).contents = (paragraph s).contents ++ (paragraph t).contents := by
  constructor
  · obtain ⟨starts, hruns⟩ := Text.exists_areRuns_words s.toList
    refine ⟨_, starts, _, rfl, hruns, alternates_intersperse (wordTexts s), ?_⟩
    rw [intersperse_eq_nil_iff, wordTexts_eq_nil_iff, Value.isBlankNode, Except.ok.injEq]
  · intro gap t hne hgap
    simp only [contents_paragraph, wordTexts_append_blank hne hgap]

/-- The words on both sides of a space. -/
theorem paragraph_exact_of_space :
    (paragraph ("to  be" ++ " " ++ "\tor\n")).contents =
      [.text "to", .text "be"] ++ [.text "or"] :=
  (paragraph_exact "to  be").2 " " "\tor\n" (by decide) (by decide)

end Document

end GlimmerFormat
