import GlimmerFormat.Proofs.Document.Parts
import GlimmerFormat.Proofs.Text.Runs

/-!
# Normal documents

A document is normal if nothing in it could be left out or put together: a concatenation holds two
documents at least, none of them empty or a concatenation itself, no text is empty, and nothing is
grouped or indented that the builders would not group or indent.  The builders make normal documents
of normal documents and strings.

On normal documents concatenation is associative, with nothing as its unit.  For associativity less
is enough: a document is spliced if what it adds to a concatenation are neither empty documents nor
concatenations again.

* `Document.IsNormal`, `Document.IsSpliced`.
* `Document.ofList_splice`: spliced documents may be put together before they are put among others.
* `Document.ClosedUnderBuilders`, `Document.closedUnderBuilders_isNormal`: what the builders are
  given and what they return.
-/

namespace GlimmerFormat.Document

/-- A document that stands in a concatenation as it is. -/
def IsPiece : Document → Prop
  | .empty | .concat _ => False
  | _ => True

/-- A document that adds to a concatenation only what stands there as it is. -/
def IsSpliced (d : Document) : Prop :=
  ∀ e ∈ d.pieces, e.IsPiece

/-- A document around which a group changes something. -/
def CanBreak : Document → Prop
  | .empty | .text _ => False
  | _ => True

/-- Whether a document, apart from what is inside the documents in it, is one that builders
make. -/
def Normal : Document → Prop
  | .text s => s ≠ ""
  | .concat docs => 2 ≤ docs.length ∧ ∀ d ∈ docs, d.IsPiece
  | .group d => d.CanBreak
  | .indent d | .align _ d => d ≠ .empty
  | _ => True

/-- A document with nothing in it that could be left out or put together. -/
abbrev IsNormal : Document → Prop := Everywhere Normal

variable {d : Document} {ds xs ys zs : List Document}

/-! ## What is spliced -/

/-- A piece adds itself to a concatenation, and nothing else. -/
lemma IsPiece.pieces_eq (h : d.IsPiece) : d.pieces = [d] := by
  cases d <;> first | rfl | exact h.elim

/-- A piece is spliced. -/
lemma IsPiece.isSpliced (h : d.IsPiece) : d.IsSpliced := by
  intro e he
  rw [h.pieces_eq, List.mem_singleton] at he
  exact he ▸ h

/-- The empty document is spliced: it adds nothing. -/
lemma isSpliced_empty : IsSpliced .empty := nofun

/-- A string is spliced: the empty one adds nothing, and any other is a piece. -/
lemma isSpliced_ofString (s : String) : (ofString s).IsSpliced := by
  unfold ofString
  split
  · exact isSpliced_empty
  · exact IsPiece.isSpliced (d := .text s) trivial

/-- What is grouped is kept as it is. -/
lemma isSpliced_grouped (d : Document) : d.grouped.IsSpliced := by
  cases d with
  | empty => exact isSpliced_empty
  | text s => exact IsPiece.isSpliced (d := .text s) trivial
  | _ => exact IsPiece.isSpliced (d := .group _) trivial

/-- What spliced documents add to a concatenation are pieces. -/
lemma isPiece_of_mem_pieces (h : ∀ d ∈ ds, d.IsSpliced) : ∀ e ∈ ds.flatMap pieces, e.IsPiece := by
  intro e he
  obtain ⟨d, hd, hmem⟩ := List.mem_flatMap.mp he
  exact h d hd e hmem

/-- What is put together of spliced documents adds to a concatenation what these documents do. -/
lemma pieces_ofList (h : ∀ d ∈ ds, d.IsSpliced) : (ofList ds).pieces = ds.flatMap pieces := by
  have hpiece := isPiece_of_mem_pieces h
  rw [ofList]
  split
  · next hnone => rw [hnone, pieces_empty]
  · next d hsingle => rw [hsingle, (hpiece d (by simp [hsingle])).pieces_eq]
  · rfl

/-- Spliced documents one after the other are spliced. -/
lemma isSpliced_ofList (h : ∀ d ∈ ds, d.IsSpliced) : (ofList ds).IsSpliced := by
  rw [IsSpliced, pieces_ofList h]
  exact isPiece_of_mem_pieces h

/-- A line is spliced. -/
lemma isSpliced_line : line.IsSpliced := IsPiece.isSpliced trivial

/-- Spliced documents are spliced also with a spliced separator between them. -/
lemma isSpliced_joined {separator : Document} (hseparator : separator.IsSpliced)
    (h : ∀ d ∈ ds, d.IsSpliced) : (joined separator ds).IsSpliced := by
  refine isSpliced_ofList fun d hd => ?_
  rcases eq_or_mem_of_mem_intersperse hd with rfl | hd
  · exact hseparator
  · exact h d hd

/-- Spliced documents may be put together before they are put among others. -/
lemma ofList_splice (h : ∀ d ∈ ys, d.IsSpliced) :
    ofList (xs ++ ofList ys :: zs) = ofList (xs ++ ys ++ zs) := by
  refine ofList_congr ?_
  rw [List.append_assoc, List.flatMap_append, List.flatMap_append, List.flatMap_cons,
    List.flatMap_append, pieces_ofList h]

/-- Concatenation is associative: two spliced documents may be put together first. -/
lemma ofList_assoc {a b c : Document} (ha : a.IsSpliced) (hb : b.IsSpliced) (hc : c.IsSpliced) :
    ofList [ofList [a, b], c] = ofList [a, ofList [b, c]] := by
  calc ofList [ofList [a, b], c]
      = ofList [a, b, c] := @ofList_splice [] [a, b] [c] (by simp [ha, hb])
    _ = ofList [a, ofList [b, c]] := (@ofList_splice [a] [b, c] [] (by simp [hb, hc])).symm

/-! ## What builders make of normal documents -/

/-- A concatenation is normal if it has at least two parts, all normal pieces. -/
lemma isNormal_concat_iff :
    (concat ds).IsNormal ↔ 2 ≤ ds.length ∧ ∀ d ∈ ds, d.IsPiece ∧ d.IsNormal := by
  simp only [IsNormal, Everywhere, Normal, everywhereAll_iff, imp_and, forall_and,
    and_assoc]

/-- A normal document is spliced. -/
lemma IsNormal.isSpliced (h : d.IsNormal) : d.IsSpliced := by
  cases d with
  | empty => exact isSpliced_empty
  | concat docs => exact h.1.2
  | _ => exact IsPiece.isSpliced trivial

/-- What a normal document adds to a concatenation is normal. -/
lemma IsNormal.of_mem_pieces (h : d.IsNormal) {e : Document} (he : e ∈ d.pieces) :
    e.IsNormal := by
  cases d with
  | empty => cases he
  | concat docs => exact everywhereAll_iff.mp h.2 e he
  | _ =>
    obtain rfl := List.mem_singleton.mp he
    exact h

/-- A normal document by itself is what is put together of it. -/
lemma IsNormal.ofList_singleton (h : d.IsNormal) : ofList [d] = d := by
  cases d with
  | concat docs =>
    obtain ⟨hlength, -⟩ := isNormal_concat_iff.mp h
    match docs, hlength with
    | e :: f :: docs, _ => simp [ofList]
  | _ => rfl

/-- A list that is neither empty nor a single document has at least two. -/
lemma two_le_length (hnone : ds ≠ []) (hsingle : ∀ d, ds ≠ [d]) : 2 ≤ ds.length := by
  cases ds with
  | nil => exact absurd rfl hnone
  | cons d ds =>
    cases ds with
    | nil => exact absurd rfl (hsingle d)
    | cons e es => simp

/-- Normal documents one after the other make a normal document: none is nested, empty or alone. -/
lemma isNormal_ofList (h : ∀ d ∈ ds, d.IsNormal) : (ofList ds).IsNormal := by
  have hpiece := isPiece_of_mem_pieces fun d hd => (h d hd).isSpliced
  have hnormal : ∀ e ∈ ds.flatMap pieces, e.IsNormal := by
    intro e he
    obtain ⟨d, hd, hmem⟩ := List.mem_flatMap.mp he
    exact (h d hd).of_mem_pieces hmem
  rw [ofList]
  split
  · exact trivial
  · next d hsingle => exact hnormal d (by simp [hsingle])
  · next hnone hsingle =>
    exact isNormal_concat_iff.mpr
      ⟨two_le_length hnone hsingle, fun e he => ⟨hpiece e he, hnormal e he⟩⟩

/-- A string makes a normal document, also if it is empty. -/
lemma isNormal_ofString (s : String) : (ofString s).IsNormal := by
  unfold ofString
  split
  · exact trivial
  · next hne => exact hne

/-- A normal document stays normal in a group, which is left out where nothing can break. -/
lemma isNormal_grouped (h : d.IsNormal) : d.grouped.IsNormal := by
  cases d with
  | empty | text s => exact h
  | _ => exact ⟨trivial, h⟩

/-- A normal document stays normal when indented: nothing is not. -/
lemma isNormal_indented (h : d.IsNormal) : d.indented.IsNormal := by
  cases d with
  | empty => exact h
  | _ => exact ⟨by simp [Normal], h⟩

/-- A normal document stays normal when aligned: nothing is not. -/
lemma isNormal_aligned (amount : Int) (h : d.IsNormal) : (d.aligned amount).IsNormal := by
  cases d with
  | empty => exact h
  | _ => exact ⟨by simp [Normal], h⟩

/-- Normal documents joined with a normal separator make a normal document. -/
lemma isNormal_joined {separator : Document} (hseparator : separator.IsNormal)
    (h : ∀ d ∈ ds, d.IsNormal) : (joined separator ds).IsNormal := by
  refine isNormal_ofList fun d hd => ?_
  rcases eq_or_mem_of_mem_intersperse hd with rfl | hd
  · exact hseparator
  · exact h d hd

/-- A fill of normal parts is normal. -/
lemma isNormal_fill (h : ∀ d ∈ ds, d.IsNormal) : (fill ds).IsNormal :=
  ⟨trivial, everywhereAll_iff.mpr h⟩

/-- A fill of words is normal: a word is not empty. -/
lemma isNormal_paragraph (s : String) : (paragraph s).IsNormal := by
  refine isNormal_fill fun d hd => ?_
  rcases eq_or_mem_of_mem_intersperse hd with rfl | hd
  · exact trivial
  · obtain ⟨w, hw, rfl⟩ := List.mem_map.mp hd
    have hne : String.ofList w ≠ "" := by
      intro h
      exact (Text.isWord_of_mem_words hw).ne_nil (String.ofList_eq_empty_iff.mp h)
    exact hne

/-! ## What builders are given -/

/-- A property of whatever the builders are given: strings may always stand for documents. -/
def OfGiven (p : Document → Prop) : Part → Prop
  | .str _ => True
  | .doc d => p d

/-- Whichever builder is called, what it returns has a property if all documents that it is given
have it. -/
structure ClosedUnderBuilders (p : Document → Prop) : Prop where
  concatenated : ∀ {parts : List Part}, (∀ part ∈ parts, OfGiven p part) →
    p (ofList (parts.map Part.document))
  grouped : ∀ {part : Part}, OfGiven p part → p part.document.grouped
  indented : ∀ {part : Part}, OfGiven p part → p part.document.indented
  aligned : ∀ {amount : Int} {part : Part}, OfGiven p part → p (part.document.aligned amount)
  joined : ∀ {separator : Part} {parts : List Part}, OfGiven p separator →
    (∀ part ∈ parts, OfGiven p part) → p (joined separator.document (parts.map Part.document))
  filled : ∀ {parts : List Part}, (∀ part ∈ parts, OfGiven p part) →
    p (fill (parts.map Part.document))
  chosen : ∀ {broken flat : Part}, OfGiven p broken → OfGiven p flat →
    p (ifBreak broken.document flat.document)
  paragraph : ∀ s : String, p (paragraph s)

/-- A string that stands for a document is normal. -/
lemma isNormal_document {part : Part} (h : OfGiven IsNormal part) : part.document.IsNormal := by
  cases part with
  | str s => exact isNormal_ofString s
  | doc d => exact h

/-- What builders are given is normal among documents: strings always are. -/
lemma isNormal_documents {parts : List Part} (h : ∀ part ∈ parts, OfGiven IsNormal part) :
    ∀ d ∈ parts.map Part.document, d.IsNormal := by
  intro d hd
  obtain ⟨part, hpart, rfl⟩ := List.mem_map.mp hd
  exact isNormal_document (h part hpart)

/-- The builders return normal documents if they are given normal documents and strings. -/
lemma closedUnderBuilders_isNormal : ClosedUnderBuilders IsNormal where
  concatenated h := isNormal_ofList (isNormal_documents h)
  grouped h := isNormal_grouped (isNormal_document h)
  indented h := isNormal_indented (isNormal_document h)
  aligned h := isNormal_aligned _ (isNormal_document h)
  joined hseparator h := isNormal_joined (isNormal_document hseparator) (isNormal_documents h)
  filled h := isNormal_fill (isNormal_documents h)
  chosen hbroken hflat := ⟨trivial, isNormal_document hbroken, isNormal_document hflat⟩
  paragraph := isNormal_paragraph

end GlimmerFormat.Document
