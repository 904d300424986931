import GlimmerFormat.Proofs.Document.Parts

/-!
# Regular documents

A fill measures its parts with nothing behind them, so a layout can be trusted to keep to its
page only if a break stands behind each fill.  A regular document holds no strays, and each
of its fills is a paragraph that a break follows.  Whether a break follows depends on what
stands around a document, so regularity is relative to that.

* `Document.isRegular_of_isFillFree`: documents without fills are regular.
* `Document.IsRegular.mono`: regularity does not suffer from a break that follows.
* `Document.isRegular_ofList`, `Document.isRegular_grouped` and so on: builders keep documents
  regular.
* `Document.isRegular_paragraph`: a reflowed text with a break behind it is regular.
-/

namespace GlimmerFormat.Document

/-! ## Paragraphs and breaks -/

/-- The parts of a paragraph: texts with breaks between them. -/
inductive IsParagraph : List Document → Prop
  | nil : IsParagraph []
  | last (s : String) : IsParagraph [.text s]
  | more (s flat : String) {next : Document} {parts : List Document}
      (h : IsParagraph (next :: parts)) :
      IsParagraph (.text s :: .newline flat :: next :: parts)

mutual

/-- Whether a broken document starts with a break.  What is empty starts like what follows it. -/
def startsWithBreak (follows : Bool) : Document → Bool
  | .empty => follows
  | .text _ => false
  | .newline _ => true
  | .hardline => true
  | .concat docs => startWithBreak follows docs
  | .indent d => startsWithBreak follows d
  | .align _ d => startsWithBreak follows d
  | .group d => startsWithBreak follows d
  | .fill _ => false
  | .ifBreak broken _ => startsWithBreak follows broken
  | .stray _ => false

/-- Whether broken documents one after the other start with a break. -/
def startWithBreak (follows : Bool) : List Document → Bool
  | [] => follows
  | d :: ds => startsWithBreak (startWithBreak follows ds) d

end

mutual

/-- A document without strays each of whose fills is a paragraph that a break follows, given
whether a break follows the document. -/
def IsRegular (follows : Bool) : Document → Prop
  | .empty => True
  | .text _ => True
  | .newline _ => True
  | .hardline => True
  | .concat docs => AreRegular follows docs
  | .indent d => IsRegular follows d
  | .align _ d => IsRegular follows d
  | .group d => IsRegular follows d
  | .fill parts => IsParagraph parts ∧ follows = true
  | .ifBreak broken flat => IsRegular follows broken ∧ IsRegular follows flat
  | .stray _ => False

/-- Documents one after the other without strays each of whose fills is a paragraph that a break
follows. -/
def AreRegular (follows : Bool) : List Document → Prop
  | [] => True
  | d :: ds => IsRegular (startWithBreak follows ds) d ∧ AreRegular follows ds

end

variable {follows : Bool}

/-- No documents start like what follows them. -/
@[simp] lemma startWithBreak_nil : startWithBreak follows [] = follows := rfl

/-- Documents start like the first of them, which the others follow. -/
@[simp] lemma startWithBreak_cons (d : Document) (ds : List Document) :
    startWithBreak follows (d :: ds) = startsWithBreak (startWithBreak follows ds) d := rfl

/-- The empty document starts like what follows it. -/
@[simp] lemma startsWithBreak_empty : startsWithBreak follows .empty = follows := rfl

/-- A line starts with a break, as it is one. -/
@[simp] lemma startsWithBreak_line : startsWithBreak follows line = true := rfl

/-- A softline starts with a break, as it is one. -/
@[simp] lemma startsWithBreak_softline : startsWithBreak follows softline = true := rfl

/-- A newline starts with a break, as it is one. -/
@[simp] lemma startsWithBreak_hardline : startsWithBreak follows .hardline = true := rfl

/-- No documents are regular ones. -/
@[simp] lemma areRegular_nil : AreRegular follows [] := trivial

/-- Documents are regular if the first is, before the others, and these are. -/
@[simp] lemma areRegular_cons {d : Document} {ds : List Document} :
    AreRegular follows (d :: ds) ↔
      d.IsRegular (startWithBreak follows ds) ∧ AreRegular follows ds := Iff.rfl

/-- The empty document is regular. -/
@[simp] lemma isRegular_empty : IsRegular follows .empty := trivial

/-- A text is regular. -/
@[simp] lemma isRegular_text (s : String) : IsRegular follows (.text s) := trivial

/-- A line is regular. -/
@[simp] lemma isRegular_line : IsRegular follows line := trivial

/-- A softline is regular. -/
@[simp] lemma isRegular_softline : IsRegular follows softline := trivial

/-- A newline is regular. -/
@[simp] lemma isRegular_hardline : IsRegular follows .hardline := trivial

/-! ## What regular documents are made of -/

/-- A paragraph has a content behind each separator. -/
lemma IsParagraph.endsWithContent {parts : List Document} (h : IsParagraph parts) :
    EndsWithContent (.fill parts) := by
  induction h with
  | nil => exact .inl rfl
  | last s => exact .inr rfl
  | more s flat h ih =>
    rcases ih with ih | ih
    · cases ih
    · refine .inr ?_
      simp only [List.length_cons] at ih ⊢
      omega

/-- A paragraph holds nothing but texts and breaks. -/
lemma IsParagraph.everywhereAll {p : Document → Prop} (htext : ∀ s, p (.text s))
    (hnewline : ∀ flat, p (.newline flat)) {parts : List Document} (h : IsParagraph parts) :
    EverywhereAll p parts := by
  induction h with
  | nil => exact trivial
  | last s => exact ⟨htext s, trivial⟩
  | more s flat h ih => exact ⟨htext s, hnewline flat, ih⟩

/-- What holds of the pieces of regular documents and of their paragraphs holds everywhere in
them. -/
lemma everywhere_of_isRegular {p : Document → Prop} {d : Document} (hd : d.IsRegular follows)
    (hempty : p .empty) (htext : ∀ s, p (.text s)) (hconcat : ∀ docs, p (.concat docs))
    (hnewline : ∀ flat, p (.newline flat)) (hhardline : p .hardline)
    (hindent : ∀ d, p (.indent d)) (halign : ∀ amount d, p (.align amount d))
    (hgroup : ∀ d, p (.group d))
    (hfill : ∀ parts, IsParagraph parts → p (.fill parts))
    (hifBreak : ∀ broken flat, p (.ifBreak broken flat)) : Everywhere p d := by
  induction d using inductionOn generalizing follows with
  | empty => exact hempty
  | text s => exact htext s
  | newline flat => exact hnewline flat
  | hardline => exact hhardline
  | stray => exact hd.elim
  | concat docs ih =>
    refine ⟨hconcat docs, ?_⟩
    rw [IsRegular] at hd
    clear hconcat
    induction docs with
    | nil => exact trivial
    | cons d ds ihds => exact ⟨ih d (by simp) hd.1, ihds (fun e he => ih e (by simp [he])) hd.2⟩
  | fill parts ih => exact ⟨hfill parts hd.1, hd.1.everywhereAll htext hnewline⟩
  | indent d ih => exact ⟨hindent d, ih hd⟩
  | align amount d ih => exact ⟨halign amount d, ih hd⟩
  | group d ih => exact ⟨hgroup d, ih hd⟩
  | ifBreak broken flat ihb ihf => exact ⟨hifBreak broken flat, ihb hd.1, ihf hd.2⟩

/-- A regular document holds no strays. -/
theorem IsRegular.isProper {d : Document} (hd : d.IsRegular follows) : d.IsProper := by
  apply everywhere_of_isRegular hd <;> simp [NotStray]

/-- The fills of a regular document are paragraphs, so a content stands behind each separator. -/
theorem IsRegular.hasOddFills {d : Document} (hd : d.IsRegular follows) : d.HasOddFills := by
  apply everywhere_of_isRegular hd
  case hfill => exact fun _ hparts => hparts.endsWithContent
  all_goals simp [EndsWithContent]

/-- A proper document without fills is regular, whatever follows it. -/
theorem isRegular_of_isFillFree {d : Document} (hproper : d.IsProper) (hfree : d.IsFillFree) :
    d.IsRegular follows := by
  induction d using inductionOn generalizing follows with
  | empty | text s | newline flat | hardline => exact trivial
  | stray => exact hproper.elim
  | concat docs ih =>
    have hp := hproper.2
    have hf := hfree.2
    rw [IsRegular]
    clear hproper hfree
    induction docs with
    | nil => exact trivial
    | cons d ds ihds =>
      exact ⟨ih d (by simp) hp.1 hf.1, ihds (fun e he => ih e (by simp [he])) hp.2 hf.2⟩
  | fill parts ih => exact hfree.1.elim
  | indent d ih => exact ih hproper.2 hfree.2
  | align amount d ih => exact ih hproper.2 hfree.2
  | group d ih => exact ih hproper.2 hfree.2
  | ifBreak broken flat ihb ihf =>
    exact ⟨ihb hproper.2.1 hfree.2.1, ihf hproper.2.2 hfree.2.2⟩

/-! ## More breaks -/

/-- What starts with a break still does if a break follows. -/
lemma startWithBreak_mono {ds : List Document}
    (h : ∀ d ∈ ds, ∀ {f g : Bool}, (f = true → g = true) →
      d.startsWithBreak f = true → d.startsWithBreak g = true)
    {f g : Bool} (hfg : f = true → g = true) (hds : startWithBreak f ds = true) :
    startWithBreak g ds = true := by
  induction ds with
  | nil => exact hfg hds
  | cons d ds ih =>
    exact h d (by simp) (ih fun e he => h e (by simp [he])) hds

/-- A break that follows can only help a document to start with one. -/
lemma startsWithBreak_mono {d : Document} {f g : Bool} (hfg : f = true → g = true)
    (hd : d.startsWithBreak f = true) : d.startsWithBreak g = true := by
  induction d using inductionOn generalizing f g with
  | empty => exact hfg hd
  | text s | fill parts ih | stray => cases hd
  | newline flat | hardline => rfl
  | concat docs ih => exact startWithBreak_mono (fun d hd _ _ => ih d hd) hfg hd
  | indent d ih | align amount d ih | group d ih => exact ih hfg hd
  | ifBreak broken flat ihb ihf => exact ihb hfg hd

/-- Regular documents stay regular when a break follows. -/
theorem IsRegular.mono {d : Document} {f g : Bool} (hfg : f = true → g = true)
    (hd : d.IsRegular f) : d.IsRegular g := by
  induction d using inductionOn generalizing f g with
  | empty | text s | newline flat | hardline => exact trivial
  | stray => exact hd
  | concat docs ih =>
    rw [IsRegular] at hd ⊢
    induction docs with
    | nil => exact trivial
    | cons d ds ihds =>
      have hstart : startWithBreak f ds = true → startWithBreak g ds = true :=
        startWithBreak_mono (fun _ _ _ _ => startsWithBreak_mono) hfg
      exact ⟨ih d (by simp) hstart hd.1, ihds (fun e he => ih e (by simp [he])) hd.2⟩
  | fill parts ih => exact ⟨hd.1, hfg hd.2⟩
  | indent d ih | align amount d ih | group d ih => exact ih hfg hd
  | ifBreak broken flat ihb ihf => exact ⟨ihb hfg hd.1, ihf hfg hd.2⟩

/-- A document that is regular before anything is regular before a break. -/
lemma IsRegular.before {d : Document} (h : d.IsRegular false) : d.IsRegular follows :=
  h.mono (by simp)

/-- Documents that are regular before anything are regular one after the other. -/
lemma areRegular_of_forall {ds : List Document} (h : ∀ d ∈ ds, d.IsRegular false) :
    AreRegular follows ds := by
  induction ds with
  | nil => exact trivial
  | cons d ds ih => exact ⟨(h d (by simp)).before, ih fun e he => h e (by simp [he])⟩

/-! ## Builders -/

/-- Documents start like the former ones, which the latter follow. -/
lemma startWithBreak_append (xs ys : List Document) :
    startWithBreak follows (xs ++ ys) = startWithBreak (startWithBreak follows ys) xs := by
  induction xs with
  | nil => rfl
  | cons x xs ih => rw [List.cons_append, startWithBreak, ih, startWithBreak]

/-- Documents are regular if the latter are, and the former before these. -/
lemma areRegular_append {xs ys : List Document} :
    AreRegular follows (xs ++ ys) ↔
      AreRegular (startWithBreak follows ys) xs ∧ AreRegular follows ys := by
  induction xs with
  | nil => simp [AreRegular]
  | cons x xs ih => simp only [List.cons_append, AreRegular, ih, startWithBreak_append, and_assoc]

/-- The pieces of a document start as it does. -/
lemma startWithBreak_pieces (d : Document) :
    startWithBreak follows d.pieces = d.startsWithBreak follows := by
  cases d <;> rfl

/-- The pieces of a document are regular exactly if it is. -/
lemma areRegular_pieces {d : Document} : AreRegular follows d.pieces ↔ d.IsRegular follows := by
  cases d <;> simp [pieces, AreRegular, IsRegular, startWithBreak]

/-- The pieces of documents start as these do. -/
lemma startWithBreak_flatMap_pieces (ds : List Document) :
    startWithBreak follows (ds.flatMap pieces) = startWithBreak follows ds := by
  induction ds with
  | nil => rfl
  | cons d ds ih =>
    rw [List.flatMap_cons, startWithBreak_append, ih, startWithBreak_pieces, startWithBreak]

/-- The pieces of documents are regular exactly if these are. -/
lemma areRegular_flatMap_pieces {ds : List Document} :
    AreRegular follows (ds.flatMap pieces) ↔ AreRegular follows ds := by
  induction ds with
  | nil => exact Iff.rfl
  | cons d ds ih =>
    rw [List.flatMap_cons, areRegular_append, ih, areRegular_pieces,
      startWithBreak_flatMap_pieces, AreRegular]

/-- Documents put together start as they do one after the other. -/
@[simp] lemma startsWithBreak_ofList (ds : List Document) :
    (ofList ds).startsWithBreak follows = startWithBreak follows ds := by
  rw [← startWithBreak_flatMap_pieces ds, ofList]
  split
  · next h => rw [h]; rfl
  · next d h => rw [h]; rfl
  · rfl

/-- Documents built into one are regular exactly when they are regular one after the other. -/
@[simp] theorem isRegular_ofList {ds : List Document} :
    (ofList ds).IsRegular follows ↔ AreRegular follows ds := by
  rw [← areRegular_flatMap_pieces, ofList]
  split
  · next h => simp [h]
  · next d h => simp [h]
  · rw [IsRegular]

/-- Documents that are regular before anything, built into one. -/
lemma isRegular_ofList_of_forall {ds : List Document} (h : ∀ d ∈ ds, d.IsRegular false) :
    (ofList ds).IsRegular follows :=
  isRegular_ofList.mpr (areRegular_of_forall h)

/-- A group is regular exactly if what it groups is. -/
@[simp] theorem isRegular_grouped {d : Document} :
    d.grouped.IsRegular follows ↔ d.IsRegular follows := by
  cases d <;> rfl

/-- An indented document starts like the document. -/
@[simp] lemma startsWithBreak_indented (d : Document) :
    d.indented.startsWithBreak follows = d.startsWithBreak follows := by
  cases d <;> rfl

/-- An indented document is regular exactly if the document is. -/
@[simp] theorem isRegular_indented {d : Document} :
    d.indented.IsRegular follows ↔ d.IsRegular follows := by
  cases d <;> rfl

/-- An aligned document is regular exactly if the document is. -/
@[simp] theorem isRegular_aligned {amount : Int} {d : Document} :
    (d.aligned amount).IsRegular follows ↔ d.IsRegular follows := by
  cases d <;> rfl

/-- A string makes a regular document. -/
@[simp] theorem isRegular_ofString (s : String) : (ofString s).IsRegular follows := by
  unfold ofString
  split <;> exact trivial

/-- Regular documents with a separator between any two. -/
theorem isRegular_joined {separator : Document} {ds : List Document}
    (hseparator : separator.IsRegular false) (hds : ∀ d ∈ ds, d.IsRegular false) :
    (joined separator ds).IsRegular follows := by
  rw [joined]
  apply isRegular_ofList_of_forall
  intro d hd
  rcases eq_or_mem_of_mem_intersperse hd with rfl | hd
  · exact hseparator
  · exact hds d hd

/-! ## Reflowed texts -/

/-- Texts with breaks between them are the parts of a paragraph. -/
lemma isParagraph_intersperse (ws : List String) (flat : String) :
    IsParagraph ((ws.map Document.text).intersperse (.newline flat)) := by
  match ws with
  | [] => exact .nil
  | [w] => exact .last w
  | w :: v :: ws =>
    have h := isParagraph_intersperse (v :: ws) flat
    cases ws with
    | nil => exact .more w flat (.last v)
    | cons u ws => exact .more w flat h

/-- A reflowed text with a break behind it is regular. -/
theorem isRegular_paragraph (s : String) : (paragraph s).IsRegular true := by
  refine ⟨?_, rfl⟩
  have h := isParagraph_intersperse ((Text.words s.toList).map String.ofList) " "
  rwa [List.map_map] at h

end GlimmerFormat.Document
