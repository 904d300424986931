import GlimmerFormat.Document.Paragraph
import Mathlib.Tactic.Lemma

/-!
# Documents and their parts

A document holds other documents, some of them in lists.  `Document.inductionOn` is induction
over a document with one hypothesis for each document of such a list, and
`Document.Everywhere p` says that a property holds of a document and of all documents inside it.

The classes of documents that the layout has laws for are of this form: documents without
strays, documents without fills, and documents whose fills have a content behind each separator.
`Document.everywhere_ofList` says when what is built of documents belongs to such a class.
-/

namespace GlimmerFormat.Document

/-- Induction over documents: what holds of the documents in a list holds of the document made
of the list. -/
@[elab_as_elim]
theorem inductionOn {motive : Document → Prop} (d : Document) (empty : motive .empty)
    (text : ∀ s, motive (.text s))
    (concat : ∀ docs, (∀ d ∈ docs, motive d) → motive (.concat docs))
    (newline : ∀ flat, motive (.newline flat)) (hardline : motive .hardline)
    (indent : ∀ d, motive d → motive (.indent d))
    (align : ∀ amount d, motive d → motive (.align amount d))
    (group : ∀ d, motive d → motive (.group d))
    (fill : ∀ parts, (∀ d ∈ parts, motive d) → motive (.fill parts))
    (ifBreak : ∀ broken flat, motive broken → motive flat → motive (.ifBreak broken flat))
    (stray : ∀ fault, motive (.stray fault)) : motive d :=
  Document.rec (motive_1 := motive) (motive_2 := fun docs => ∀ d ∈ docs, motive d)
    empty text concat newline hardline indent align group fill ifBreak stray
    (by simp) (fun _ _ hd hds => by simpa using ⟨hd, hds⟩) d

/-! ## Properties that hold everywhere -/

mutual

/-- A property holds of a document and of all documents inside it. -/
def Everywhere (p : Document → Prop) : Document → Prop
  | .empty => p .empty
  | .text s => p (.text s)
  | .concat docs => p (.concat docs) ∧ EverywhereAll p docs
  | .newline flat => p (.newline flat)
  | .hardline => p .hardline
  | .indent d => p (.indent d) ∧ Everywhere p d
  | .align amount d => p (.align amount d) ∧ Everywhere p d
  | .group d => p (.group d) ∧ Everywhere p d
  | .fill parts => p (.fill parts) ∧ EverywhereAll p parts
  | .ifBreak broken flat => p (.ifBreak broken flat) ∧ Everywhere p broken ∧ Everywhere p flat
  | .stray fault => p (.stray fault)

/-- A property holds of documents and of all documents inside them. -/
def EverywhereAll (p : Document → Prop) : List Document → Prop
  | [] => True
  | d :: ds => Everywhere p d ∧ EverywhereAll p ds

end

/-- Whether a document is anything but a stray. -/
def NotStray : Document → Prop
  | .stray _ => False
  | _ => True

/-- Whether a document is anything but a fill. -/
def NotFill : Document → Prop
  | .fill _ => False
  | _ => True

/-- Whether a document, if it is a fill, is empty or has a content behind each separator. -/
def EndsWithContent : Document → Prop
  | .fill parts => parts = [] ∨ parts.length % 2 = 1
  | _ => True

/-- A document that can be laid out: nothing in it is a stray. -/
abbrev IsProper : Document → Prop := Everywhere NotStray

/-- A proper document is no stray. -/
lemma IsProper.ne_stray {d : Document} (hd : d.IsProper) (fault : Fault) : d ≠ .stray fault := by
  rintro rfl
  exact hd

/-- A document without fills. -/
abbrev IsFillFree : Document → Prop := Everywhere NotFill

/-- A document each of whose fills is empty or starts and ends with a content. -/
abbrev HasOddFills : Document → Prop := Everywhere EndsWithContent

/-- Whether a document is no choice and no stray and, if it is a fill, has a content behind each
separator. -/
def Straight : Document → Prop
  | .fill parts => EndsWithContent (.fill parts)
  | .ifBreak _ _ => False
  | .stray _ => False
  | _ => True

/-- A document without choices and strays each of whose fills is empty or starts and ends with a
content. -/
abbrev IsStraight : Document → Prop := Everywhere Straight

/-- A property holds everywhere in documents exactly when it holds everywhere in each. -/
theorem everywhereAll_iff {p : Document → Prop} {ds : List Document} :
    EverywhereAll p ds ↔ ∀ d ∈ ds, Everywhere p d := by
  induction ds with
  | nil => simp [EverywhereAll]
  | cons d ds ih => simp [EverywhereAll, ih]

/-- What follows from a property follows everywhere. -/
lemma Everywhere.mono {p q : Document → Prop} {d : Document} (hd : Everywhere p d)
    (h : ∀ e, p e → q e) : Everywhere q d := by
  induction d using inductionOn with
  | empty | text s | newline flat | hardline | stray => exact h _ hd
  | concat docs ih | fill docs ih =>
    have hdocs := everywhereAll_iff.mp hd.2
    exact ⟨h _ hd.1, everywhereAll_iff.mpr fun e he => ih e he (hdocs e he)⟩
  | indent d ih | align amount d ih | group d ih => exact ⟨h _ hd.1, ih hd.2⟩
  | ifBreak broken flat ihb ihf => exact ⟨h _ hd.1, ihb hd.2.1, ihf hd.2.2⟩

/-- Whether a document is straight and does not stand for a newline in every group. -/
def Soft : Document → Prop
  | .hardline => False
  | d => Straight d

/-- A straight document that can be flat. -/
abbrev IsSoft : Document → Prop := Everywhere Soft

/-- A soft document is straight. -/
lemma IsSoft.isStraight {d : Document} (hd : d.IsSoft) : d.IsStraight :=
  Everywhere.mono hd fun e he => by cases e <;> first | exact trivial | exact he

/-- A straight document holds no strays. -/
lemma IsStraight.isProper {d : Document} (hd : d.IsStraight) : d.IsProper :=
  Everywhere.mono hd fun e he => by cases e <;> first | exact trivial | exact he

/-- The fills of a straight document have a content behind each separator. -/
lemma IsStraight.hasOddFills {d : Document} (hd : d.IsStraight) : d.HasOddFills :=
  Everywhere.mono hd fun e he => by cases e <;> first | exact trivial | exact he

/-! ## What is built -/

section

variable {d : Document} {ds es : List Document}

/-- What is built with a document that is kept whole is this document or a concatenation. -/
lemma ofList_eq_or_concat (hmem : d ∈ ds) (hd : d.pieces = [d]) :
    ofList ds = d ∨ ∃ docs, ofList ds = .concat docs := by
  have hpiece : d ∈ ds.flatMap pieces := List.mem_flatMap.mpr ⟨d, hmem, by simp [hd]⟩
  rw [ofList]
  split
  · next hnone => simp [hnone] at hpiece
  · next e hsingle =>
    rw [hsingle] at hpiece
    exact .inl (List.mem_singleton.mp hpiece).symm
  · exact .inr ⟨_, rfl⟩

/-- Documents that add the same pieces are the same one after the other. -/
lemma ofList_congr (h : ds.flatMap pieces = es.flatMap pieces) : ofList ds = ofList es := by
  rw [ofList, ofList, h]

/-- What makes a list of each document, and puts the lists of a concatenation together, does so with
what is built. -/
lemma flatMap_ofList {α : Type} {f : Document → List α} (hempty : f .empty = [])
    (hconcat : ∀ docs, f (.concat docs) = docs.flatMap f) (ds : List Document) :
    f (ofList ds) = ds.flatMap f := by
  have hpieces : ∀ d : Document, d.pieces.flatMap f = f d := by
    intro d
    cases d <;> simp [pieces, hempty, hconcat]
  have hall : (ds.flatMap pieces).flatMap f = ds.flatMap f := by
    simp only [List.flatMap_assoc, hpieces]
  rw [← hall, ofList]
  split
  · next h => rw [h, hempty, List.flatMap_nil]
  · next d h => rw [h, List.flatMap_singleton]
  · rw [hconcat]

/-- What is built with a newline or another document that a group is made for is grouped. -/
lemma grouped_ofList (hmem : d ∈ ds) (hd : d.pieces = [d]) (hgrouped : d.grouped = .group d) :
    (ofList ds).grouped = .group (ofList ds) := by
  rcases ofList_eq_or_concat hmem hd with h | ⟨docs, h⟩
  · rw [h, hgrouped]
  · rw [h]
    rfl

/-- What is built with a document that is not left out is indented. -/
lemma indented_ofList (hmem : d ∈ ds) (hd : d.pieces = [d]) (hindented : d.indented = .indent d) :
    (ofList ds).indented = .indent (ofList ds) := by
  rcases ofList_eq_or_concat hmem hd with h | ⟨docs, h⟩
  · rw [h, hindented]
  · rw [h]
    rfl

end

/-- What stands in a list with separators is a separator or stands in the list. -/
lemma eq_or_mem_of_mem_intersperse {separator d : Document} {ds : List Document}
    (h : d ∈ ds.intersperse separator) : d = separator ∨ d ∈ ds := by
  induction ds with
  | nil => simp at h
  | cons e es ih =>
    cases es with
    | nil => exact .inr h
    | cons f fs =>
      rw [List.intersperse_cons_cons] at h
      rcases List.mem_cons.mp h with rfl | h
      · exact .inr (by simp)
      · rcases List.mem_cons.mp h with rfl | h
        · exact .inl rfl
        · exact (ih h).imp_right (List.mem_cons_of_mem e)

/-! ## Properties of what is built -/

section

variable {p : Document → Prop} (hempty : p .empty) (hconcat : ∀ docs, p (.concat docs))

include hempty hconcat

/-- What holds everywhere in the pieces of a document holds everywhere in it, and conversely. -/
lemma everywhere_pieces {d : Document} : (∀ e ∈ d.pieces, Everywhere p e) ↔ Everywhere p d := by
  cases d with
  | empty => simpa [pieces, Everywhere] using hempty
  | concat docs => simp [pieces, Everywhere, everywhereAll_iff, hconcat]
  | _ => simp [pieces]

/-- What holds of concatenations holds everywhere in what is built of documents exactly when it
holds everywhere in these. -/
theorem everywhere_ofList {ds : List Document} :
    Everywhere p (ofList ds) ↔ ∀ d ∈ ds, Everywhere p d := by
  have hpieces : (∀ e ∈ ds.flatMap pieces, Everywhere p e) ↔ ∀ d ∈ ds, Everywhere p d := by
    induction ds with
    | nil => simp
    | cons d ds ih =>
      rw [List.flatMap_cons, List.forall_mem_append, everywhere_pieces hempty hconcat, ih,
        List.forall_mem_cons]
  rw [← hpieces, ofList]
  split
  · next h => simpa [h, Everywhere] using hempty
  · next d h => simp [h]
  · simp [Everywhere, everywhereAll_iff, hconcat]

omit hempty hconcat

/-- What holds of the empty document and of a text holds of a string as a document. -/
lemma everywhere_ofString (hempty : p .empty) {s : String} (htext : p (.text s)) :
    Everywhere p (ofString s) := by
  unfold ofString
  split
  · exact hempty
  · exact htext

/-- Grouping keeps what holds everywhere, if it holds of groups. -/
lemma everywhere_grouped (hgroup : ∀ d, p (.group d)) {d : Document} (h : Everywhere p d) :
    Everywhere p d.grouped := by
  cases d with
  | empty | text s => exact h
  | _ => exact ⟨hgroup _, h⟩

/-- Indenting keeps what holds everywhere, if it holds of levels of indentation. -/
lemma everywhere_indented (hindent : ∀ d, p (.indent d)) {d : Document} (h : Everywhere p d) :
    Everywhere p d.indented := by
  cases d with
  | empty => exact h
  | _ => exact ⟨hindent _, h⟩

/-- Aligning keeps what holds everywhere, if it holds of alignments. -/
lemma everywhere_aligned (halign : ∀ amount d, p (.align amount d)) {amount : Int} {d : Document}
    (h : Everywhere p d) : Everywhere p (d.aligned amount) := by
  cases d with
  | empty => exact h
  | _ => exact ⟨halign _ _, h⟩

end

end GlimmerFormat.Document
