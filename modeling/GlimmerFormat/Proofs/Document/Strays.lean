import GlimmerFormat.Proofs.Document.Ink

/-!
# Strays

What is no document has no layout, but a fault that it is met with.  The strays of a document are
these faults in the order of the document, so the first of them is the one that is met first.

* `Document.strays_ofList`, `Document.strays_grouped` and so on: builders keep the strays of their
  parts.
-/

namespace GlimmerFormat

namespace Document

mutual

/-- The faults of what is no document, in order. -/
def strays : Document → List Fault
  | .empty => []
  | .text _ => []
  | .concat docs => straysAll docs
  | .newline _ => []
  | .hardline => []
  | .indent d => strays d
  | .align _ d => strays d
  | .group d => strays d
  | .fill parts => straysAll parts
  | .ifBreak broken _ => strays broken
  | .stray fault => [fault]

/-- The faults of what is no document in several documents, in order. -/
def straysAll : List Document → List Fault
  | [] => []
  | d :: ds => strays d ++ straysAll ds

end

/-! ## Builders -/

/-- The strays of documents are those of each of them. -/
lemma straysAll_eq_flatMap (ds : List Document) : straysAll ds = ds.flatMap strays := by
  induction ds with
  | nil => rfl
  | cons d ds ih => rw [straysAll, ih, List.flatMap_cons]

/-- Nothing holds no strays. -/
@[simp] lemma strays_empty : strays .empty = [] := rfl

/-- A text holds no strays. -/
@[simp] lemma strays_text (s : String) : strays (.text s) = [] := rfl

/-- A break that is a space when flat holds no strays. -/
@[simp] lemma strays_line : strays line = [] := rfl

/-- A break that is nothing when flat holds no strays. -/
@[simp] lemma strays_softline : strays softline = [] := rfl

/-- A newline in every group holds no strays. -/
@[simp] lemma strays_hardline : strays .hardline = [] := rfl

/-- Splicing concatenations and dropping what is empty loses no strays. -/
@[simp] lemma strays_ofList (ds : List Document) : (ofList ds).strays = ds.flatMap strays :=
  flatMap_ofList rfl straysAll_eq_flatMap ds

/-- A string as a document holds no strays. -/
@[simp] lemma strays_ofString (s : String) : (ofString s).strays = [] := by
  unfold ofString
  split <;> rfl

/-- A group has the strays of what is grouped. -/
@[simp] lemma strays_grouped (d : Document) : d.grouped.strays = d.strays := by
  cases d <;> rfl

/-- Indenting keeps strays. -/
@[simp] lemma strays_indented (d : Document) : d.indented.strays = d.strays := by
  cases d <;> rfl

/-- Aligning keeps strays. -/
@[simp] lemma strays_aligned (amount : Int) (d : Document) :
    (d.aligned amount).strays = d.strays := by
  cases d <;> rfl

/-- Breaks between documents add no strays. -/
lemma flatMap_strays_intersperse_line (ds : List Document) :
    (ds.intersperse line).flatMap strays = ds.flatMap strays := by
  induction ds with
  | nil => rfl
  | cons d ds ih =>
    cases ds with
    | nil => rfl
    | cons e es => simp [List.intersperse_cons_cons, ih]

/-- Documents with breaks between any two have their strays. -/
@[simp] lemma strays_joined_line (ds : List Document) :
    (joined line ds).strays = ds.flatMap strays := by
  rw [joined, strays_ofList, flatMap_strays_intersperse_line]

/-- A reflowed text holds no strays. -/
@[simp] lemma strays_paragraph (s : String) : (paragraph s).strays = [] := by
  rw [paragraph, strays, straysAll_eq_flatMap, flatMap_strays_intersperse_line, wordTexts,
    List.flatMap_map]
  simp

end Document

end GlimmerFormat
