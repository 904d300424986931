import GlimmerFormat.Proofs.Document.Ink
import GlimmerFormat.Proofs.Layout.Faults
import GlimmerFormat.Proofs.Layout.Rendering

/-!
# The ink of a layout

Where lines break and how far they are indented depends on the page; what is written on them does
not.  All legal renderings of a steady document have the ink of the document, and dropping the
ends of lines loses none of it, so its layouts on any two pages differ in blanks alone.

* `Document.ink_of_isRendering`: a rendering of a steady document has its ink.
* `Mark.ink_kept`: dropping the ends of lines loses no ink.
* `Document.ink_of_layout`: the layout of a steady document has the ink of the document.
* `Document.layout_on_two_pages`: the page changes nothing but the blanks of a layout.
-/

namespace GlimmerFormat

open Text (CoversSpacing)

variable {blank : Char → Bool}

/-- The ink of segments, in order. -/
def Segment.ink (blank : Char → Bool) (segments : List Segment) : List Char :=
  segments.flatMap fun s => Text.ink blank s.render

namespace Segment

/-- No segments have no ink. -/
@[simp] lemma ink_nil : ink blank [] = [] := rfl

/-- The ink of the first segment comes first. -/
@[simp] lemma ink_cons (s : Segment) (ss : List Segment) :
    ink blank (s :: ss) = Text.ink blank s.render ++ ink blank ss := rfl

/-- The ink of segments put together is their ink put together. -/
@[simp] lemma ink_append (xs ys : List Segment) :
    ink blank (xs ++ ys) = ink blank xs ++ ink blank ys :=
  List.flatMap_append

end Segment

/-! ## Renderings -/

namespace Document

variable {unit indentation : String}

/-- The spaces of an alignment have no ink. -/
lemma ink_spaces (hblank : CoversSpacing blank) (amount : Int) :
    Text.ink blank (spaces amount) = [] := by
  rw [Text.ink_eq_nil_iff, spaces, String.toList_ofList]
  intro c hc
  obtain rfl := List.eq_of_mem_replicate hc
  exact hblank.space

/-- A newline segment leaves no ink if its indentation leaves none. -/
lemma ink_newline (hblank : CoversSpacing blank) (hindentation : Text.ink blank indentation = []) :
    Segment.ink blank [.newline indentation] = [] := by
  have hnewline : Text.ink blank "\n" = [] := by
    rw [Text.ink_eq_nil_iff]
    simpa using hblank.newline
  simp [Segment.render, hnewline, hindentation]

/-- A break that stays on its line leaves no ink in a steady document. -/
lemma ink_flatBreak (hblank : CoversSpacing blank) {flat : String} (h : flat = "" ∨ flat = " ") :
    Segment.ink blank [.flatBreak flat] = [] := by
  have hspace : Text.ink blank " " = [] := by
    rw [Text.ink_eq_nil_iff]
    simpa using hblank.space
  rcases h with rfl | rfl <;> simp [Segment.render, hspace]

/-- Renderings one after the other have the ink of the documents if each of them has. -/
lemma ink_of_areRenderings {mode : Mode} {ds : List Document}
    (h : ∀ d ∈ ds, ∀ {segments : List Segment},
      d.IsRendering unit indentation mode segments → Segment.ink blank segments = d.ink blank)
    {segments : List Segment} (hds : AreRenderings unit indentation mode ds segments) :
    Segment.ink blank segments = inkAll blank ds := by
  induction ds generalizing segments with
  | nil =>
    rw [AreRenderings] at hds
    rw [hds]
    rfl
  | cons d ds ih =>
    obtain ⟨first, others, hfirst, hothers, rfl⟩ := hds
    have hink := h d (by simp) hfirst
    have hinks := ih (fun e he => h e (by simp [he])) hothers
    simp [hink, hinks]

/-- Renderings of the parts of a fill have the ink of the parts if each of them has. -/
lemma ink_of_arePartRenderings {parts : List Document}
    (h : ∀ d ∈ parts, ∀ {mode : Mode} {segments : List Segment},
      d.IsRendering unit indentation mode segments → Segment.ink blank segments = d.ink blank)
    {segments : List Segment} (hparts : ArePartRenderings unit indentation parts segments) :
    Segment.ink blank segments = inkAll blank parts := by
  induction parts generalizing segments with
  | nil =>
    rw [ArePartRenderings] at hparts
    rw [hparts]
    rfl
  | cons d ds ih =>
    obtain ⟨first, others, hfirst, hothers, rfl⟩ := hparts
    have hink : Segment.ink blank first = d.ink blank := by
      rcases hfirst with hfirst | hfirst
      · exact h d (by simp) hfirst
      · exact h d (by simp) hfirst
    have hinks := ih (fun e he => h e (by simp [he])) hothers
    simp [hink, hinks]

/-- Whatever a steady document is laid out as has its ink. -/
theorem ink_of_isRendering (hblank : CoversSpacing blank)
    (hunit : Text.ink blank unit = []) (hindentation : Text.ink blank indentation = [])
    {d : Document} (hd : d.IsSteady) {mode : Mode} {segments : List Segment}
    (h : d.IsRendering unit indentation mode segments) :
    Segment.ink blank segments = d.ink blank := by
  induction d using inductionOn generalizing indentation mode segments with
  | empty =>
    obtain rfl : segments = [] := h
    rfl
  | text s =>
    obtain rfl : segments = [.text s] := h
    simp [Segment.render]
  | newline flat =>
    cases mode with
    | flat =>
      obtain rfl : segments = [.flatBreak flat] := h
      exact ink_flatBreak hblank hd
    | broken =>
      obtain rfl : segments = [.newline indentation] := h
      exact ink_newline hblank hindentation
  | hardline =>
    obtain rfl : segments = [.newline indentation] := h
    exact ink_newline hblank hindentation
  | stray => exact h.elim
  | concat docs ih =>
    have hall := everywhereAll_iff.mp hd.2
    exact ink_of_areRenderings (fun d hmem _ => ih d hmem hindentation (hall d hmem)) h
  | fill parts ih =>
    have hall := everywhereAll_iff.mp hd.2
    exact ink_of_arePartRenderings (fun d hmem _ _ => ih d hmem hindentation (hall d hmem)) h
  | indent d ih =>
    have hdeeper : Text.ink blank (indentation ++ unit) = [] := by simp [hindentation, hunit]
    exact ih hdeeper hd.2 h
  | align amount d ih =>
    have hdeeper : Text.ink blank (indentation ++ spaces amount) = [] := by
      simp [hindentation, ink_spaces hblank]
    exact ih hdeeper hd.2 h
  | group d ih =>
    cases mode with
    | flat => exact ih hindentation hd.2 h
    | broken =>
      rcases h with h | h
      · exact ih hindentation hd.2 h
      · exact ih hindentation hd.2 h
  | ifBreak broken flat ihb ihf => exact hd.1.elim

end Document

/-! ## The ends of lines -/

namespace Mark

/-- The ink of marks, in order. -/
def ink (blank : Char → Bool) : List Mark → List Char
  | [] => []
  | .newline :: ms => ink blank ms
  | .char c :: ms => if blank c then ink blank ms else c :: ink blank ms

/-- The ink of the characters of a text is that of the text. -/
lemma ink_ofString_append (s : String) (ms : List Mark) :
    ink blank (ofString s ++ ms) = Text.ink blank s ++ ink blank ms := by
  have hchars : ∀ cs : List Char, ink blank (cs.map char ++ ms) =
      (cs.filter fun c => !blank c) ++ ink blank ms := by
    intro cs
    induction cs with
    | nil => rfl
    | cons c cs ih =>
      rw [List.map_cons, List.cons_append, ink, ih]
      by_cases hc : blank c = true <;> simp [hc]
  exact hchars s.toList

/-- Segments and their marks have the same ink. -/
lemma ink_ofSegments (hblank : CoversSpacing blank) (ss : List Segment) :
    ink blank (ofSegments ss) = Segment.ink blank ss := by
  induction ss with
  | nil => rfl
  | cons s ss ih =>
    cases s with
    | text t | flatBreak t =>
      rw [ofSegments, ink_ofString_append, ih]
      rfl
    | newline indentation =>
      have hnewline : Text.ink blank "\n" = [] := by
        rw [Text.ink_eq_nil_iff]
        simpa using hblank.newline
      rw [ofSegments, ink, ink_ofString_append, ih, Segment.ink_cons, Segment.render,
        Text.ink_append, hnewline, List.nil_append]

/-- What stands before a newline segment up to its end is blank. -/
lemma blank_of_endsLine (hblank : CoversSpacing blank) {c : Char} {ms : List Mark}
    (h : endsLine (.char c :: ms) = true) : blank c = true := by
  simp only [endsLine, Bool.and_eq_true, Bool.or_eq_true, beq_iff_eq] at h
  rcases h.1 with rfl | rfl
  · exact hblank.space
  · exact hblank.tab

/-- Dropping the ends of lines loses no ink. -/
theorem ink_kept (hblank : CoversSpacing blank) (ms : List Mark) :
    ((kept ms).filter fun c => !blank c) = ink blank ms := by
  induction ms with
  | nil => rfl
  | cons m ms ih =>
    cases m with
    | newline => simp [kept, ink, ih, hblank.newline]
    | char c =>
      rw [kept, ink]
      by_cases hends : endsLine (.char c :: ms) = true
      · rw [if_pos hends, if_pos (blank_of_endsLine hblank hends), ih]
      · rw [if_neg hends]
        by_cases hc : blank c = true <;> simp [hc, ih]

end Mark

/-! ## Layouts -/

namespace Document

/-- A layout is the text kept of some legal rendering. -/
lemma exists_rendering_of_layout {page : Page} {d : Document} {text : String}
    (h : d.layout page = .ok text) :
    ∃ segments, d.IsRendering page.unit "" .broken segments ∧
      text.toList = Mark.kept (Mark.ofSegments segments) := by
  obtain ⟨log, column, hlaid, rfl⟩ := layout_eq_ok.mp h
  exact ⟨LayoutEvent.segments log, isRendering_of_lay hlaid, (Mark.kept_ofSegments _).symm⟩

/-- The layout of a steady document on a page with a blank unit of indentation has the ink of the
document. -/
theorem ink_of_layout (hblank : CoversSpacing blank) {page : Page}
    (hunit : Text.ink blank page.unit = []) {d : Document} (hd : d.IsSteady) {text : String}
    (h : d.layout page = .ok text) : Text.ink blank text = d.ink blank := by
  obtain ⟨segments, hrendering, htext⟩ := exists_rendering_of_layout h
  have hink := ink_of_isRendering hblank hunit Text.ink_empty hd hrendering
  rw [Text.ink, htext, Mark.ink_kept hblank, Mark.ink_ofSegments hblank, hink]

/-- A proper document has a layout on every page. -/
lemma exists_layout (page : Page) {d : Document} (hd : d.IsProper) :
    ∃ text, d.layout page = .ok text := by
  obtain ⟨log, column, hlay⟩ := exists_layOut page hd
  exact ⟨_, layout_eq_ok.mpr ⟨log, column, hlay, rfl⟩⟩

/-- On two pages a steady document fails to be laid out with the same stray, or its two layouts have
the same ink. -/
theorem layout_on_two_pages (hblank : CoversSpacing blank) {page page' : Page}
    (hunit : Text.ink blank page.unit = []) (hunit' : Text.ink blank page'.unit = [])
    {d : Document} (hd : d.IsSteady) :
    (∃ e, d.layout page = .error e ∧ d.layout page' = .error e) ∨
      ∃ text text', d.layout page = .ok text ∧ d.layout page' = .ok text' ∧
        Text.ink blank text = Text.ink blank text' := by
  cases h : d.layout page with
  | error e =>
    have hfirst := (layout_eq_error_iff page hd).mp h
    exact .inl ⟨e, rfl, (layout_eq_error_iff page' hd).mpr hfirst⟩
  | ok text =>
    cases h' : d.layout page' with
    | error e =>
      have hfirst := (layout_eq_error_iff page' hd).mp h'
      cases h.symm.trans ((layout_eq_error_iff page hd).mpr hfirst)
    | ok text' =>
      have hink := ink_of_layout hblank hunit hd h
      have hink' := ink_of_layout hblank hunit' hd h'
      exact .inr ⟨text, text', rfl, rfl, hink.trans hink'.symm⟩

end Document

end GlimmerFormat
