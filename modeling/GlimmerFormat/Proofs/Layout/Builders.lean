import GlimmerFormat.Document.Sketch
import GlimmerFormat.Proofs.Document.Regular
import GlimmerFormat.Proofs.Layout.Alongside

/-!
# Builders and spelt-out documents

Builders drop what is empty, splice concatenations into each other and leave groups out.  A sketch
can also be spelt out, with nothing dropped, spliced or left out, and the text is the same: what is
measured is the same, so all decisions are, and what comes out differs in empty texts alone.

* `Segment.joined_settle_written`: empty texts make no difference to a text.
* `Document.Interchangeable`: documents that may stand for each other wherever they stand.
* `Document.interchangeable_ofList`, `Document.interchangeable_grouped` and so on: what a builder
  returns may stand for what it is spelt out as.
* `Sketch.interchangeable_build`: so may what a whole sketch stands for.
* `Sketch.layout_spelledOut`: a sketch and its spelt-out document have the same text on every page.
-/

namespace GlimmerFormat

/-! ## Empty texts -/

namespace Segment

/-- Segments without the empty texts among them. -/
def written (ss : List Segment) : List Segment :=
  ss.filter (· ≠ .text "")

/-- What is written of segments put together is written of each. -/
@[simp] lemma written_append (xs ys : List Segment) :
    written (xs ++ ys) = written xs ++ written ys :=
  List.filter_append ..

end Segment

namespace Line

/-- Lines with the same text have it still behind the same segment. -/
lemma text_next {l k : Line} (h : l.text = k.text) (s : Segment) :
    (l.next s).text = (k.next s).text := by
  cases s with
  | newline indentation => rfl
  | text t | flatBreak t =>
    simp only [text] at h
    simp only [next, text, Segment.joined_append, ← String.append_assoc, h]

/-- Empty texts make no difference to the texts of lines. -/
lemma texts_written {l k : Line} (h : l.text = k.text) (ss : List Segment) :
    (l.closedLines ss).map text = (k.closedLines (Segment.written ss)).map text ∧
      (l.openLine ss).text = (k.openLine (Segment.written ss)).text := by
  induction ss generalizing l k with
  | nil => exact ⟨rfl, h⟩
  | cons s ss ih =>
    by_cases hs : s = .text ""
    · have hempty : (l.next (.text "")).text = k.text := by
        rw [← h]
        simp [next, text, Segment.render]
      have hnone : Segment.written (.text "" :: ss) = Segment.written ss := rfl
      rw [hs, hnone]
      exact ih hempty
    · have hkept : Segment.written (s :: ss) = s :: Segment.written ss := by
        simp [Segment.written, hs]
      obtain ⟨hclosed, hopen⟩ := ih (text_next h s)
      rw [hkept, closedLines_cons, closedLines_cons, List.map_append, List.map_append, hclosed]
      refine ⟨?_, hopen⟩
      cases s.isNewline <;> simp [h]

end Line

namespace Segment

/-- The text of a settled layout is made of the texts of its lines. -/
lemma joined_settle_eq_texts (ss : List Segment) :
    joined (settle ss) = "\n".intercalate
      (((Line.first.closedLines ss).map Line.text).map trimmed ++
        [(Line.first.openLine ss).text]) := by
  have hinline : Line.first.IsInline := by simp [Line.IsInline, Line.first]
  have htrim : (Line.first.closedLines ss).map (fun l => l.trim.text) =
      ((Line.first.closedLines ss).map Line.text).map trimmed := by
    rw [List.map_map]
    exact List.map_congr_left fun l hl =>
      Line.text_trim (Line.isInline_of_mem_closedLines hinline hl)
  rw [joined_settle, htrim]

/-- Empty texts make no difference to a text. -/
theorem joined_settle_written (ss : List Segment) :
    joined (settle (written ss)) = joined (settle ss) := by
  obtain ⟨hclosed, hopen⟩ := Line.texts_written (l := .first) (k := .first) rfl ss
  rw [joined_settle_eq_texts, joined_settle_eq_texts, hclosed, hopen]

end Segment

namespace LayoutEvent

/-- Two layouts emit the same but for empty texts, whichever groups break. -/
def WriteAlike (log log' : List LayoutEvent) : Prop :=
  Segment.written (segments log) = Segment.written (segments log')

/-- The same texts, flat breaks and broken groups write alike, and so do records put together. -/
lemma isParallel_writeAlike : IsParallel WriteAlike where
  nil := rfl
  append hx hy := by
    simp only [WriteAlike] at hx hy
    simp only [WriteAlike, segments_append, Segment.written_append, hx, hy]
  broke _ := rfl
  text _ := rfl
  flatBreak _ := rfl

end LayoutEvent

/-! ## Documents that may stand for each other -/

namespace Document

/-- Documents that may stand for each other: wherever they stand they are measured alike and laid
out as the same but for empty texts. -/
def Interchangeable (d e : Document) : Prop :=
  ∀ page indentation, Alongside LayoutEvent.WriteAlike page page indentation indentation d e

namespace Interchangeable

variable {d e f : Document} {ds es : List Document}

/-- A proper document may stand for itself. -/
lemma refl (hd : d.IsProper) : Interchangeable d d :=
  fun _ _ => ⟨hd, hd, fun _ _ => .refl _, fun _ _ _ _ => ⟨rfl, rfl⟩⟩

/-- Documents may stand for each other either way. -/
lemma symm (h : Interchangeable d e) : Interchangeable e d := by
  intro page indentation
  obtain ⟨hd, he, hmeasured, hlaid⟩ := h page indentation
  refine ⟨he, hd, fun mode rest => (hmeasured mode rest).symm, ?_⟩
  intro mode rest hrest column
  exact ⟨(hlaid mode hrest column).outcome_eq.symm, (hlaid mode hrest column).log.symm⟩

/-- Documents that may stand for a third one may stand for each other. -/
lemma trans (h : Interchangeable d e) (h' : Interchangeable e f) : Interchangeable d f := by
  intro page indentation
  obtain ⟨hd, -, hmeasured, hlaid⟩ := h page indentation
  obtain ⟨-, hf, hmeasured', hlaid'⟩ := h' page indentation
  refine ⟨hd, hf, fun mode rest => (hmeasured mode rest).trans (hmeasured' mode rest), ?_⟩
  intro mode rest hrest column
  have hfirst := hlaid mode hrest column
  have hsecond := hlaid' mode hrest column
  exact ⟨hfirst.outcome_eq.trans hsecond.outcome_eq, hfirst.log.trans hsecond.log⟩

/-- Of documents that may stand for each other the first is proper. -/
lemma isProper_left (h : Interchangeable d e) : d.IsProper :=
  (h ⟨0, "", 0⟩ "").left

/-- Of documents that may stand for each other the second is proper. -/
lemma isProper_right (h : Interchangeable d e) : e.IsProper :=
  h.symm.isProper_left

/-- Parts of a concatenation may be interchanged in it. -/
lemma concat (h : List.Forall₂ Interchangeable ds es) :
    Interchangeable (.concat ds) (.concat es) :=
  fun page indentation => .concat LayoutEvent.isParallel_writeAlike
    (h.imp fun _ _ h => h page indentation)

/-- Parts of a fill may be interchanged in it. -/
lemma fill (h : List.Forall₂ Interchangeable ds es) : Interchangeable (.fill ds) (.fill es) :=
  fun page indentation => .fill LayoutEvent.isParallel_writeAlike rfl
    (h.imp fun _ _ h => h page indentation)

/-- A document may be interchanged where it is indented. -/
lemma indent (h : Interchangeable d e) : Interchangeable (.indent d) (.indent e) :=
  fun page indentation => .indent (h page (indentation ++ page.unit))

/-- A document may be interchanged where it is aligned. -/
lemma align (amount : Int) (h : Interchangeable d e) :
    Interchangeable (.align amount d) (.align amount e) :=
  fun page indentation => .align amount (h page (indentation ++ spaces amount))

/-- A document may be interchanged in a group. -/
lemma group (h : Interchangeable d e) : Interchangeable (.group d) (.group e) :=
  fun page indentation => .group LayoutEvent.isParallel_writeAlike rfl (h page indentation)

/-- The documents of a choice may be interchanged in it. -/
lemma ifBreak {broken flat broken' flat' : Document} (hbroken : Interchangeable broken broken')
    (hflat : Interchangeable flat flat') :
    Interchangeable (.ifBreak broken flat) (.ifBreak broken' flat') :=
  fun page indentation => .ifBreak (hbroken page indentation) (hflat page indentation)

end Interchangeable

/-! ## Builders -/

section

variable {d : Document} {ds : List Document}

/-- An empty string is nothing, or an empty text. -/
lemma interchangeable_ofString (s : String) : Interchangeable (ofString s) (.text s) := by
  by_cases hs : s = ""
  · subst hs
    intro page indentation
    refine ⟨trivial, trivial, ?_, ?_⟩
    · intro mode rest room _
      simp [Pending.allFit_cons, spend]
    · intro mode rest _ column
      exact ⟨rfl, rfl⟩
  · rw [ofString_of_ne hs]
    exact .refl trivial

/-- Documents one after the other may stand for their concatenation: splicing is not seen. -/
lemma interchangeable_ofList (h : ∀ d ∈ ds, d.IsProper) :
    Interchangeable (ofList ds) (.concat ds) := by
  intro page indentation
  refine ⟨(everywhere_ofList trivial fun _ => trivial).mpr h, ⟨trivial, everywhereAll_iff.mpr h⟩,
    fun mode rest => Pending.alike_ofList mode ds rest, ?_⟩
  intro mode rest _ column
  rw [lay_ofList]
  exact ⟨rfl, rfl⟩

/-- A group around what is laid out alike in both modes makes no difference. -/
lemma interchangeable_group (hd : d.IsProper)
    (h : ∀ page indentation mode rest column, d.lay page indentation mode rest column =
      d.lay page indentation .flat rest column) : Interchangeable d (.group d) := by
  intro page indentation
  refine ⟨hd, ⟨trivial, hd⟩, fun mode rest => (Pending.alike_group mode d rest).symm, ?_⟩
  intro mode rest hrest column
  cases mode with
  | flat => exact ⟨rfl, rfl⟩
  | broken =>
    obtain ⟨log, mode, hmode⟩ := page.exists_groupMode hd hrest column
    have hsilent : LayoutEvent.segments log = [] := by
      rcases Page.groupMode_eq_ok.mp hmode with ⟨-, rfl, -⟩ | ⟨-, rfl, -⟩ <;> rfl
    have hgroup : (Document.group d).lay page indentation .broken rest column =
        ⟨log ++ (d.lay page indentation .flat rest column).log,
          (d.lay page indentation .flat rest column).outcome⟩ := by
      rw [lay, hmode, Traced.ok_bind, h]
    rw [h, hgroup]
    refine ⟨rfl, ?_⟩
    simp [LayoutEvent.WriteAlike, hsilent]

/-- A group that is left out where nothing can break is not missed. -/
lemma interchangeable_grouped (hd : d.IsProper) : Interchangeable d.grouped (.group d) := by
  cases d with
  | empty | text s => exact interchangeable_group hd fun _ _ _ _ _ => rfl
  | _ => exact .refl ⟨trivial, hd⟩

/-- An indentation that is left out where there is nothing is not missed. -/
lemma interchangeable_indented (hd : d.IsProper) : Interchangeable d.indented (.indent d) := by
  cases d with
  | empty =>
    exact fun page indentation => ⟨trivial, ⟨trivial, trivial⟩,
      fun mode rest => (Pending.alike_indent mode .empty rest).symm, fun _ _ _ _ => ⟨rfl, rfl⟩⟩
  | _ => exact .refl ⟨trivial, hd⟩

/-- An alignment that is left out where there is nothing is not missed. -/
lemma interchangeable_aligned (amount : Int) (hd : d.IsProper) :
    Interchangeable (d.aligned amount) (.align amount d) := by
  cases d with
  | empty =>
    exact fun page indentation => ⟨trivial, ⟨trivial, trivial⟩,
      fun mode rest => (Pending.alike_align mode amount .empty rest).symm,
      fun _ _ _ _ => ⟨rfl, rfl⟩⟩
  | _ => exact .refl ⟨trivial, hd⟩

end

/-- Documents that may stand for each other have the same text. -/
theorem Interchangeable.layout {d e : Document} (h : Interchangeable d e) (page : Page) :
    ∃ text, d.layout page = .ok text ∧ e.layout page = .ok text := by
  obtain ⟨log, column, hd⟩ := exists_layOut page h.isProper_left
  obtain ⟨log', column', he⟩ := exists_layOut page h.isProper_right
  have hwritten := (h page "").layOut.log
  rw [hd, he, LayoutEvent.WriteAlike] at hwritten
  refine ⟨_, layout_eq_ok.mpr ⟨log, column, hd, rfl⟩, layout_eq_ok.mpr ⟨log', column', he, ?_⟩⟩
  rw [← Segment.joined_settle_written, hwritten, Segment.joined_settle_written]

end Document

/-! ## Sketches -/

namespace Sketch

open Document

mutual

/-- The document that a sketch spells out: each string is a text, even if it is empty, and nothing
is spliced, dropped or left out. -/
def spelledOut : Sketch → Document
  | .empty => .empty
  | .str s | .spelledText s => .text s
  | .newline flat => .newline flat
  | .hardline => .hardline
  | .concat parts | .spelledConcat parts => .concat (spelledOutAll parts)
  | .group part | .spelledGroup part => .group part.spelledOut
  | .indent part | .spelledIndent part => .indent part.spelledOut
  | .align amount part | .spelledAlign amount part => .align amount part.spelledOut
  | .join separator parts => .concat ((spelledOutAll parts).intersperse separator.spelledOut)
  | .fill parts | .spelledFill parts => .fill (spelledOutAll parts)
  | .ifBreak broken flat | .spelledIfBreak broken flat =>
    .ifBreak broken.spelledOut flat.spelledOut
  | .paragraph s => .paragraph s

/-- The documents that several sketches spell out, in order. -/
def spelledOutAll : List Sketch → List Document
  | [] => []
  | e :: es => e.spelledOut :: spelledOutAll es

end

/-- A string that is kept may stand for what it is coerced to. -/
lemma interchangeable_verbatim {p : Part} {d : Document} (h : Interchangeable p.document d) :
    Interchangeable p.verbatim d := by
  cases p with
  | str s => exact (interchangeable_ofString s).symm.trans h
  | doc e => exact h

/-- Interchangeable documents are so with interchangeable separators between them. -/
lemma forall₂_intersperse {ds es : List Document} {s t : Document} (hs : Interchangeable s t)
    (h : List.Forall₂ Interchangeable ds es) :
    List.Forall₂ Interchangeable (ds.intersperse s) (es.intersperse t) := by
  induction h with
  | nil => exact .nil
  | cons hd hds ih =>
    cases hds with
    | nil => exact .cons hd .nil
    | cons he hes =>
      rw [List.intersperse_cons_cons, List.intersperse_cons_cons]
      exact .cons hd (.cons hs ih)

/-- Documents that may stand for others are proper. -/
lemma forall_isProper_left {ds es : List Document} (h : List.Forall₂ Interchangeable ds es) :
    ∀ d ∈ ds, d.IsProper := by
  induction h with
  | nil => simp
  | cons hd _ ih => exact List.forall_mem_cons.mpr ⟨hd.isProper_left, ih⟩

/-- The parts of a list may be interchanged as documents. -/
lemma forall₂_document {ps : List Part} {ds : List Document}
    (h : List.Forall₂ (fun (p : Part) d => Interchangeable p.document d) ps ds) :
    List.Forall₂ Interchangeable (ps.map Part.document) ds :=
  List.forall₂_map_left_iff.mpr h

/-- The parts of a list may be interchanged also where strings are kept. -/
lemma forall₂_verbatim {ps : List Part} {ds : List Document}
    (h : List.Forall₂ (fun (p : Part) d => Interchangeable p.document d) ps ds) :
    List.Forall₂ Interchangeable (ps.map Part.verbatim) ds :=
  List.forall₂_map_left_iff.mpr (h.imp fun _ _ => interchangeable_verbatim)

/-- Documents one after the other may stand for a concatenation of interchangeable ones. -/
lemma interchangeable_ofList_concat {ds es : List Document}
    (h : List.Forall₂ Interchangeable ds es) : Interchangeable (ofList ds) (.concat es) :=
  (interchangeable_ofList (forall_isProper_left h)).trans (.concat h)

mutual

/-- What builders return for a sketch may stand for what the sketch spells out. -/
theorem interchangeable_build : ∀ e : Sketch, Interchangeable e.build.document e.spelledOut
  | .empty | .newline _ | .hardline | .spelledText _ => .refl trivial
  | .str s => interchangeable_ofString s
  | .paragraph s => .refl (isRegular_paragraph s).isProper
  | .concat parts =>
    interchangeable_ofList_concat (forall₂_document (interchangeable_buildAll parts))
  | .group part => by
    have h := interchangeable_build part
    exact (interchangeable_grouped h.isProper_left).trans h.group
  | .indent part => by
    have h := interchangeable_build part
    exact (interchangeable_indented h.isProper_left).trans h.indent
  | .align amount part => by
    have h := interchangeable_build part
    exact (interchangeable_aligned amount h.isProper_left).trans (h.align amount)
  | .join separator parts =>
    interchangeable_ofList_concat (forall₂_intersperse (interchangeable_build separator)
      (forall₂_document (interchangeable_buildAll parts)))
  | .fill parts => .fill (forall₂_document (interchangeable_buildAll parts))
  | .ifBreak broken flat => .ifBreak (interchangeable_build broken) (interchangeable_build flat)
  | .spelledConcat parts => .concat (forall₂_verbatim (interchangeable_buildAll parts))
  | .spelledGroup part => (interchangeable_verbatim (interchangeable_build part)).group
  | .spelledIndent part => (interchangeable_verbatim (interchangeable_build part)).indent
  | .spelledAlign amount part =>
    (interchangeable_verbatim (interchangeable_build part)).align amount
  | .spelledFill parts => .fill (forall₂_verbatim (interchangeable_buildAll parts))
  | .spelledIfBreak broken flat =>
    .ifBreak (interchangeable_verbatim (interchangeable_build broken))
      (interchangeable_verbatim (interchangeable_build flat))

/-- What sketches build may stand for what they spell out. -/
theorem interchangeable_buildAll : ∀ es : List Sketch,
    List.Forall₂ (fun (p : Part) d => Interchangeable p.document d) (buildAll es) (spelledOutAll es)
  | [] => .nil
  | e :: es => .cons (interchangeable_build e) (interchangeable_buildAll es)

end

/-- The builders change nothing about the text: on every page, also one of negative width, the
document of a sketch and the document that it spells out have one and the same. -/
theorem layout_spelledOut (page : Page) (e : Sketch) :
    ∃ text, e.document.layout page = .ok text ∧ e.spelledOut.layout page = .ok text :=
  (interchangeable_verbatim (interchangeable_build e)).layout page

end Sketch

end GlimmerFormat
