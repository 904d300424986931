import GlimmerFormat.Proofs.Document.Plain
import GlimmerFormat.Proofs.Layout.Rendering

/-!
# Layouts of plain documents

A plain document puts a newline character into its layout for a newline segment only, so the lines
of the layout are the lines of its text.

* `Document.onOneLine_of_isRendering`, `Document.onOneLine_of_layOut`: what a plain document is laid
  out as is on one line, segment for segment.
* `Line.isOneLine_text_of_mem_closedLines`, `Line.isOneLine_text_openLine`: lines made of such
  segments hold no newline characters.
-/

namespace GlimmerFormat

open Text (IsOneLine)

/-- Whether a segment holds no newline character but the one that starts a line. -/
def Segment.OnOneLine : Segment → Prop
  | .text s => IsOneLine s
  | .flatBreak s => IsOneLine s
  | .newline indentation => IsOneLine indentation

/-! ## Renderings -/

namespace Document

variable {unit indentation : String}

/-- The spaces of an alignment hold no newline character. -/
lemma isOneLine_spaces (amount : Int) : IsOneLine (spaces amount) := by
  simp [IsOneLine, spaces]

/-- Documents laid out without newline characters are so one after the other. -/
lemma onOneLine_of_areRenderings {mode : Mode} {ds : List Document}
    (h : ∀ d ∈ ds, ∀ {segments : List Segment},
      d.IsRendering unit indentation mode segments → ∀ s ∈ segments, s.OnOneLine)
    {segments : List Segment} (hds : AreRenderings unit indentation mode ds segments) :
    ∀ s ∈ segments, s.OnOneLine := by
  induction ds generalizing segments with
  | nil =>
    rw [AreRenderings] at hds
    simp [hds]
  | cons d ds ih =>
    obtain ⟨first, others, hfirst, hothers, rfl⟩ := hds
    have hbehind := ih (fun e he => h e (by simp [he])) hothers
    exact List.forall_mem_append.mpr ⟨h d (by simp) hfirst, hbehind⟩

/-- Parts of a fill laid out without newline characters are so one after the other. -/
lemma onOneLine_of_arePartRenderings {parts : List Document}
    (h : ∀ d ∈ parts, ∀ {mode : Mode} {segments : List Segment},
      d.IsRendering unit indentation mode segments → ∀ s ∈ segments, s.OnOneLine)
    {segments : List Segment} (hparts : ArePartRenderings unit indentation parts segments) :
    ∀ s ∈ segments, s.OnOneLine := by
  induction parts generalizing segments with
  | nil =>
    rw [ArePartRenderings] at hparts
    simp [hparts]
  | cons d ds ih =>
    obtain ⟨first, others, hfirst, hothers, rfl⟩ := hparts
    have hbehind := ih (fun e he => h e (by simp [he])) hothers
    exact List.forall_mem_append.mpr ⟨hfirst.elim (h d (by simp)) (h d (by simp)), hbehind⟩

/-- Whatever a plain document is laid out as is on one line, segment for segment. -/
theorem onOneLine_of_isRendering (hunit : IsOneLine unit) (hindentation : IsOneLine indentation)
    {d : Document} (hd : d.IsPlain) {mode : Mode} {segments : List Segment}
    (h : d.IsRendering unit indentation mode segments) : ∀ s ∈ segments, s.OnOneLine := by
  have hsingle : ∀ {s : Segment}, s.OnOneLine → ∀ t ∈ [s], t.OnOneLine := by
    intro s hs t ht
    exact List.mem_singleton.mp ht ▸ hs
  induction d using inductionOn generalizing indentation mode segments with
  | empty =>
    obtain rfl : segments = [] := h
    simp
  | text s =>
    obtain rfl : segments = [.text s] := h
    exact hsingle hd
  | newline flat =>
    cases mode with
    | flat =>
      obtain rfl : segments = [.flatBreak flat] := h
      exact hsingle hd
    | broken =>
      obtain rfl : segments = [.newline indentation] := h
      exact hsingle hindentation
  | hardline =>
    obtain rfl : segments = [.newline indentation] := h
    exact hsingle hindentation
  | stray => exact h.elim
  | concat docs ih =>
    have hall := everywhereAll_iff.mp hd.2
    exact onOneLine_of_areRenderings (fun d hmem _ => ih d hmem hindentation (hall d hmem)) h
  | fill parts ih =>
    have hall := everywhereAll_iff.mp hd.2
    exact onOneLine_of_arePartRenderings (fun d hmem _ _ => ih d hmem hindentation (hall d hmem)) h
  | indent d ih => exact ih (Text.isOneLine_append.mpr ⟨hindentation, hunit⟩) hd.2 h
  | align amount d ih =>
    exact ih (Text.isOneLine_append.mpr ⟨hindentation, isOneLine_spaces amount⟩) hd.2 h
  | group d ih =>
    cases mode with
    | flat => exact ih hindentation hd.2 h
    | broken => exact h.elim (ih hindentation hd.2) (ih hindentation hd.2)
  | ifBreak broken flat ihb ihf =>
    cases mode with
    | flat => exact ihf hindentation hd.2.2 h
    | broken => exact ihb hindentation hd.2.1 h

/-- All that is emitted for a plain document on a page is on one line, segment for segment. -/
lemma onOneLine_of_layOut {page : Page} (hunit : IsOneLine page.unit) {d : Document}
    (hd : d.IsPlain) {log : List LayoutEvent} {column : Nat}
    (h : d.layOut page = ⟨log, .ok column⟩) : ∀ s ∈ LayoutEvent.segments log, s.OnOneLine := by
  have hrendering : d.IsRendering page.unit "" .broken (LayoutEvent.segments log) :=
    isRendering_of_lay h
  exact onOneLine_of_isRendering hunit Text.isOneLine_empty hd hrendering

end Document

/-! ## Lines -/

namespace Line

/-- The line behind a segment on one line holds no newline character, if the line before holds
none. -/
lemma isOneLine_text_next {l : Line} (hl : IsOneLine l.text) {s : Segment} (hs : s.OnOneLine) :
    IsOneLine (l.next s).text := by
  cases s with
  | newline indentation =>
    have htext : (l.next (.newline indentation)).text = indentation := by simp [next, text]
    exact htext.symm ▸ hs
  | text t | flatBreak t =>
    have htext : ∀ u : Segment, text ⟨l.indentation, l.pieces ++ [u]⟩ = l.text ++ u.render := by
      simp [text, String.append_assoc]
    simp only [next, htext, Text.isOneLine_append]
    exact ⟨hl, hs⟩

/-- The text of the open line holds no newline character if no segment does. -/
lemma isOneLine_text_openLine {l : Line} (hl : IsOneLine l.text) {ss : List Segment}
    (hss : ∀ s ∈ ss, s.OnOneLine) : IsOneLine (l.openLine ss).text := by
  induction ss generalizing l with
  | nil => exact hl
  | cons s ss ih =>
    exact ih (isOneLine_text_next hl (hss s (by simp))) fun t ht => hss t (by simp [ht])

/-- The texts of lines that end hold no newline character if no segment does. -/
lemma isOneLine_text_of_mem_closedLines {l : Line} (hl : IsOneLine l.text) {ss : List Segment}
    (hss : ∀ s ∈ ss, s.OnOneLine) : ∀ k ∈ l.closedLines ss, IsOneLine k.text := by
  induction ss generalizing l with
  | nil => simp
  | cons s ss ih =>
    intro k hk
    rw [closedLines_cons] at hk
    rcases List.mem_append.mp hk with hk | hk
    · obtain rfl : k = l := by
        by_cases hs : s.isNewline = true
        · simpa [hs] using hk
        · simp [hs] at hk
      exact hl
    · exact ih (isOneLine_text_next hl (hss s (by simp))) (fun t ht => hss t (by simp [ht])) k hk

end Line

end GlimmerFormat
