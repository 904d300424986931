import GlimmerFormat.Proofs.Document.Ink
import GlimmerFormat.Proofs.Tree.Tokens

/-!
# Documents in two quote styles

One tree is printed as two documents, one for each quote style.  They have the same shape, and
their texts are the same but for string literals, which stand between one quote or the other.
`Document.Restyled ls d e` says so of two documents and names the literals in order.

The relation is kept by every builder, and on the way it shows that nothing printed depends on
more than the blanks of its layout.

* `Document.AreRestyled.ofList`, `Document.AreRestyled.joined_line`, `Document.Restyled.grouped`
  and so on: builders keep the relation.
* `Document.Restyled.isSteady`: both documents are steady.
-/

namespace GlimmerFormat.Document

open Markup (QuoteStyle)

/-- A document in both quote styles, and the literals between its quotes. -/
structure Variants where
  literals : List String
  single : Document
  double : Document

/-- Two documents that differ in the quotes around some literals alone, which are given in
order. -/
inductive Restyled : List String → Document → Document → Prop
  | empty : Restyled [] .empty .empty
  | text (s : String) : Restyled [] (.text s) (.text s)
  | literal {s : String} (h : Text.holdsQuote s = false) :
    Restyled [s] (.text (QuoteStyle.single.around s)) (.text (QuoteStyle.double.around s))
  | concat {vs : List Variants} (h : ∀ v ∈ vs, Restyled v.literals v.single v.double) :
    Restyled (vs.flatMap Variants.literals) (.concat (vs.map Variants.single))
      (.concat (vs.map Variants.double))
  | newline {flat : String} (h : flat = "" ∨ flat = " ") :
    Restyled [] (.newline flat) (.newline flat)
  | hardline : Restyled [] .hardline .hardline
  | indent {ls : List String} {d e : Document} (h : Restyled ls d e) :
    Restyled ls (.indent d) (.indent e)
  | align {ls : List String} {d e : Document} (amount : Int) (h : Restyled ls d e) :
    Restyled ls (.align amount d) (.align amount e)
  | group {ls : List String} {d e : Document} (h : Restyled ls d e) :
    Restyled ls (.group d) (.group e)
  | fill {vs : List Variants} (h : ∀ v ∈ vs, Restyled v.literals v.single v.double) :
    Restyled (vs.flatMap Variants.literals) (.fill (vs.map Variants.single))
      (.fill (vs.map Variants.double))
  | stray (fault : Fault) : Restyled [] (.stray fault) (.stray fault)

/-- Documents that differ pairwise in the quotes around some literals alone. -/
inductive AreRestyled : List String → List Document → List Document → Prop
  | nil : AreRestyled [] [] []
  | cons {ls ms : List String} {d e : Document} {ds es : List Document} (h : Restyled ls d e)
    (hs : AreRestyled ms ds es) : AreRestyled (ls ++ ms) (d :: ds) (e :: es)

variable {ls ms : List String} {d e : Document} {ds es : List Document}

/-! ## Lists -/

namespace AreRestyled

/-- Documents each given in both styles are restyled together, with all their literals. -/
lemma of_variants {vs : List Variants} (h : ∀ v ∈ vs, Restyled v.literals v.single v.double) :
    AreRestyled (vs.flatMap Variants.literals) (vs.map Variants.single)
      (vs.map Variants.double) := by
  induction vs with
  | nil => exact .nil
  | cons v vs ih => exact .cons (h v (by simp)) (ih fun w hw => h w (by simp [hw]))

/-- Documents that are restyled together are each given in both styles. -/
lemma exists_variants (h : AreRestyled ls ds es) :
    ∃ vs : List Variants, (∀ v ∈ vs, Restyled v.literals v.single v.double) ∧
      ls = vs.flatMap Variants.literals ∧ ds = vs.map Variants.single ∧
      es = vs.map Variants.double := by
  induction h with
  | nil => exact ⟨[], by simp, rfl, rfl, rfl⟩
  | @cons ls ms d e ds es h hs ih =>
    obtain ⟨vs, hvs, rfl, rfl, rfl⟩ := ih
    exact ⟨⟨ls, d, e⟩ :: vs, by simpa using ⟨h, hvs⟩, rfl, rfl, rfl⟩

/-- Concatenations are restyled if their parts are. -/
lemma concat (h : AreRestyled ls ds es) : Restyled ls (.concat ds) (.concat es) := by
  obtain ⟨vs, hvs, rfl, rfl, rfl⟩ := h.exists_variants
  exact .concat hvs

/-- Fills are restyled if their parts are. -/
lemma fill (h : AreRestyled ls ds es) : Restyled ls (.fill ds) (.fill es) := by
  obtain ⟨vs, hvs, rfl, rfl, rfl⟩ := h.exists_variants
  exact .fill hvs

/-- Restyled documents put together are restyled, with the literals of both. -/
lemma append {ds' es' : List Document} (h : AreRestyled ls ds es)
    (h' : AreRestyled ms ds' es') : AreRestyled (ls ++ ms) (ds ++ ds') (es ++ es') := by
  induction h with
  | nil => exact h'
  | cons hfirst hothers ih =>
    rw [List.append_assoc]
    exact .cons hfirst ih

/-- Literals stand in the first document alone. -/
lemma cons_plain (h : Restyled ls d e) (hs : AreRestyled [] ds es) :
    AreRestyled ls (d :: ds) (e :: es) := by
  have hcons := AreRestyled.cons h hs
  rwa [List.append_nil] at hcons

/-- One restyled document alone. -/
lemma singleton (h : Restyled ls d e) : AreRestyled ls [d] [e] :=
  cons_plain h .nil

/-- Documents that are the same in both styles. -/
lemma of_forall (h : ∀ d ∈ ds, Restyled [] d d) : AreRestyled [] ds ds := by
  induction ds with
  | nil => exact .nil
  | cons d ds ih => exact .cons (h d (by simp)) (ih fun e he => h e (by simp [he]))

end AreRestyled

/-! ## Builders -/

/-- What a restyled document adds to a concatenation is restyled. -/
lemma Restyled.pieces (h : Restyled ls d e) : AreRestyled ls d.pieces e.pieces := by
  have hwhole := h
  cases h with
  | empty => exact .nil
  | concat hvs => exact .of_variants hvs
  | _ => exact .singleton hwhole

/-- What restyled documents add to a concatenation is restyled. -/
lemma AreRestyled.flatMap_pieces (h : AreRestyled ls ds es) :
    AreRestyled ls (ds.flatMap Document.pieces) (es.flatMap Document.pieces) := by
  induction h with
  | nil => exact .nil
  | cons hfirst hothers ih =>
    rw [List.flatMap_cons, List.flatMap_cons]
    exact hfirst.pieces.append ih

/-- Documents one after the other are restyled if each of them is. -/
theorem AreRestyled.ofList (h : AreRestyled ls ds es) :
    Restyled ls (Document.ofList ds) (Document.ofList es) := by
  have hpieces := h.flatMap_pieces
  unfold Document.ofList
  generalize ds.flatMap Document.pieces = ps at hpieces
  generalize es.flatMap Document.pieces = qs at hpieces
  cases hpieces with
  | nil => exact .empty
  | cons hfirst hothers =>
    cases hothers with
    | nil => rwa [List.append_nil]
    | cons hsecond hothers => exact (AreRestyled.cons hfirst (.cons hsecond hothers)).concat

/-- A line has no quotes. -/
lemma restyled_line : Restyled [] line line :=
  .newline (.inr rfl)

/-- A softline has no quotes. -/
lemma restyled_softline : Restyled [] softline softline :=
  .newline (.inl rfl)

/-- A string that is no literal is the same in both styles. -/
lemma restyled_ofString (s : String) : Restyled [] (ofString s) (ofString s) := by
  unfold ofString
  by_cases hs : s = ""
  · rw [if_pos hs]
    exact .empty
  · rw [if_neg hs]
    exact .text s

namespace Restyled

/-- Restyled documents are restyled in groups: both have a group, or neither. -/
lemma grouped (h : Restyled ls d e) : Restyled ls d.grouped e.grouped := by
  have hinside := h
  cases h with
  | empty => exact .empty
  | text s => exact .text s
  | literal hs => exact .literal hs
  | _ => exact .group hinside

/-- Restyled documents are restyled when indented: both are, or neither. -/
lemma indented (h : Restyled ls d e) : Restyled ls d.indented e.indented := by
  have hinside := h
  cases h with
  | empty => exact .empty
  | _ => exact .indent hinside

/-- Restyled documents are restyled when aligned: both are, or neither. -/
lemma aligned (amount : Int) (h : Restyled ls d e) :
    Restyled ls (d.aligned amount) (e.aligned amount) := by
  have hinside := h
  cases h with
  | empty => exact .empty
  | _ => exact .align amount hinside

end Restyled

namespace AreRestyled

/-- Separators without literals keep lists of documents restyled. -/
lemma intersperse {separator : Document} (hseparator : Restyled [] separator separator)
    (h : AreRestyled ls ds es) :
    AreRestyled ls (ds.intersperse separator) (es.intersperse separator) := by
  induction h with
  | nil => exact .nil
  | cons hfirst hothers ih =>
    cases hothers with
    | nil => exact .cons hfirst .nil
    | cons hsecond hothers =>
      have hbehind := AreRestyled.cons hseparator ih
      exact .cons hfirst hbehind

/-- Restyled documents are restyled with lines between them. -/
lemma joined_line (h : AreRestyled ls ds es) : Restyled ls (joined line ds) (joined line es) :=
  (h.intersperse restyled_line).ofList

end AreRestyled

/-- A reflowed text is the same in both styles. -/
lemma restyled_paragraph (s : String) : Restyled [] (paragraph s) (paragraph s) := by
  have hwords : AreRestyled [] (wordTexts s) (wordTexts s) := by
    refine .of_forall ?_
    intro d hd
    obtain ⟨w, -, rfl⟩ := List.mem_map.mp hd
    exact .text _
  exact (hwords.intersperse restyled_line).fill

/-! ## Steadiness -/

/-- A document that has a restyled one is steady, and so is the other. -/
theorem Restyled.isSteady (h : Restyled ls d e) : d.IsSteady ∧ e.IsSteady := by
  induction h with
  | empty | text | literal | hardline | stray => exact ⟨trivial, trivial⟩
  | newline hflat => exact ⟨hflat, hflat⟩
  | indent h ih | align amount h ih | group h ih => exact ⟨⟨trivial, ih.1⟩, ⟨trivial, ih.2⟩⟩
  | concat h ih | fill h ih =>
    refine ⟨⟨trivial, everywhereAll_iff.mpr ?_⟩, ⟨trivial, everywhereAll_iff.mpr ?_⟩⟩
    · intro d hd
      obtain ⟨v, hv, rfl⟩ := List.mem_map.mp hd
      exact (ih v hv).1
    · intro d hd
      obtain ⟨v, hv, rfl⟩ := List.mem_map.mp hd
      exact (ih v hv).2

end GlimmerFormat.Document
