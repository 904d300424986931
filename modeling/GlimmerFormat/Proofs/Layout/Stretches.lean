import GlimmerFormat.Proofs.Layout.Ink

/-!
# Stretches of a layout

What a document is laid out as holds, somewhere, what each document inside it is laid out as.  Such
a stretch is found again in the text of the layout: its ink always, and its text where neither it
nor what follows it starts with the end of a line.

* `Document.isRendering_ofList`: a document that is built of others is laid out as these are.
* `Document.Shows`: a document is found in whatever another one is laid out as.
* `Mark.kept_append`: the end of a line is the only thing that reaches back into a text.
* `Document.exists_ink_of_shows`: the ink of a document that is shown is the ink of a stretch of the
  text.
-/

namespace GlimmerFormat

namespace Document

variable {unit indentation : String} {mode : Mode}

/-! ## Renderings of documents that are built -/

/-- Documents are laid out as the former and then the latter. -/
lemma areRenderings_append {xs ys : List Document} {segments : List Segment} :
    AreRenderings unit indentation mode (xs ++ ys) segments ↔
      ∃ first second, AreRenderings unit indentation mode xs first ∧
        AreRenderings unit indentation mode ys second ∧ segments = first ++ second := by
  induction xs generalizing segments with
  | nil => simp [AreRenderings]
  | cons x xs ih =>
    simp only [List.cons_append, AreRenderings, ih]
    constructor
    · rintro ⟨first, _, hx, ⟨second, third, hxs, hys, rfl⟩, rfl⟩
      exact ⟨first ++ second, third, ⟨first, second, hx, hxs, rfl⟩, hys, by simp⟩
    · rintro ⟨_, third, ⟨first, second, hx, hxs, rfl⟩, hys, rfl⟩
      exact ⟨first, second ++ third, hx, ⟨second, third, hxs, hys, rfl⟩, by simp⟩

/-- A single document one after the other is laid out as it is. -/
lemma areRenderings_singleton {d : Document} {segments : List Segment} :
    AreRenderings unit indentation mode [d] segments ↔
      d.IsRendering unit indentation mode segments := by
  simp [AreRenderings]

/-- The pieces of a document are laid out as the document is. -/
lemma areRenderings_pieces {d : Document} {segments : List Segment} :
    AreRenderings unit indentation mode d.pieces segments ↔
      d.IsRendering unit indentation mode segments := by
  cases d with
  | empty | concat docs => exact Iff.rfl
  | _ => exact areRenderings_singleton

/-- A document that is built of others is laid out as these are, one after the other. -/
theorem isRendering_ofList {ds : List Document} {segments : List Segment} :
    (ofList ds).IsRendering unit indentation mode segments ↔
      AreRenderings unit indentation mode ds segments := by
  have hpieces : AreRenderings unit indentation mode (ds.flatMap pieces) segments ↔
      AreRenderings unit indentation mode ds segments := by
    induction ds generalizing segments with
    | nil => exact Iff.rfl
    | cons d ds ih =>
      simp only [List.flatMap_cons, areRenderings_append, areRenderings_pieces, ih, AreRenderings]
  rw [← hpieces, ofList]
  split
  · next h => rw [h]; exact Iff.rfl
  · next d h => rw [h, areRenderings_singleton]
  · exact Iff.rfl

/-- What is grouped is laid out flat or broken. -/
lemma exists_mode_of_grouped {d : Document} {segments : List Segment}
    (h : d.grouped.IsRendering unit indentation mode segments) :
    ∃ mode', d.IsRendering unit indentation mode' segments := by
  have hgroup : ∀ d : Document, (Document.group d).IsRendering unit indentation mode segments →
      ∃ mode', d.IsRendering unit indentation mode' segments := by
    intro d hd
    cases mode with
    | flat => exact ⟨.flat, hd⟩
    | broken =>
      rcases hd with hd | hd
      · exact ⟨.flat, hd⟩
      · exact ⟨.broken, hd⟩
  cases d with
  | empty | text s => exact ⟨mode, h⟩
  | _ => exact hgroup _ h

/-! ## Documents inside others -/

/-- Whatever a document is laid out as, another document is laid out as some stretch of it.  Both
are indented by blanks. -/
def Shows (blank : Char → Bool) (unit : String) (d e : Document) : Prop :=
  ∀ ⦃indentation : String⦄ ⦃mode : Mode⦄ ⦃segments : List Segment⦄,
    Text.ink blank indentation = [] → d.IsRendering unit indentation mode segments →
    ∃ indentation' mode' before stretch after, Text.ink blank indentation' = [] ∧
      e.IsRendering unit indentation' mode' stretch ∧ segments = before ++ stretch ++ after

variable {blank : Char → Bool} {d e f : Document}

/-- A document shows itself. -/
lemma Shows.refl (d : Document) : Shows blank unit d d := by
  intro indentation mode segments hblank h
  exact ⟨indentation, mode, [], segments, [], hblank, h, by simp⟩

/-- A document shows whatever is shown by what it shows. -/
lemma Shows.trans (hde : Shows blank unit d e) (hef : Shows blank unit e f) :
    Shows blank unit d f := by
  intro indentation mode segments hblank h
  obtain ⟨indentation', mode', before, stretch, after, hblank', hstretch, rfl⟩ := hde hblank h
  obtain ⟨indentation'', mode'', before', stretch', after', hblank'', hstretch', rfl⟩ :=
    hef hblank' hstretch
  exact ⟨indentation'', mode'', before ++ before', stretch', after' ++ after, hblank'', hstretch',
    by simp⟩

/-- Nothing is shown by everything. -/
lemma shows_empty (d : Document) : Shows blank unit d .empty := by
  intro indentation mode segments hblank h
  exact ⟨indentation, mode, [], [], segments, hblank, rfl, rfl⟩

/-- Documents one after the other show any stretch of them. -/
lemma shows_ofList_append (xs ys zs : List Document) :
    Shows blank unit (ofList (xs ++ ys ++ zs)) (ofList ys) := by
  intro indentation mode segments hblank h
  obtain ⟨_, after, hboth, -, rfl⟩ := areRenderings_append.mp (isRendering_ofList.mp h)
  obtain ⟨before, stretch, -, hstretch, rfl⟩ := areRenderings_append.mp hboth
  exact ⟨indentation, mode, before, stretch, after, hblank, isRendering_ofList.mpr hstretch, rfl⟩

/-- Documents one after the other show each of them. -/
lemma shows_ofList {ds : List Document} (hmem : d ∈ ds) : Shows blank unit (ofList ds) d := by
  obtain ⟨xs, ys, rfl⟩ := List.append_of_mem hmem
  have hsingle : Shows blank unit (ofList [d]) d := by
    intro indentation mode segments hblank h
    exact Shows.refl d hblank (areRenderings_singleton.mp (isRendering_ofList.mp h))
  have hstretch := (shows_ofList_append xs [d] ys).trans hsingle
  rwa [List.append_assoc, List.singleton_append] at hstretch

/-- A group shows what it groups. -/
lemma shows_grouped (d : Document) : Shows blank unit d.grouped d := by
  intro indentation mode segments hblank h
  obtain ⟨mode', hd⟩ := exists_mode_of_grouped h
  exact Shows.refl d hblank hd

/-- An indented document shows the document, if the unit is blank. -/
lemma shows_indented (hunit : Text.ink blank unit = []) (d : Document) :
    Shows blank unit d.indented d := by
  have hindent : ∀ d : Document, Shows blank unit (.indent d) d := by
    intro d indentation mode segments hblank h
    exact Shows.refl d (by simp [hblank, hunit]) h
  cases d with
  | empty => exact Shows.refl _
  | _ => exact hindent _

/-- An aligned document shows the document, as spaces are blank. -/
lemma shows_aligned (hspacing : Text.CoversSpacing blank) (amount : Int) (d : Document) :
    Shows blank unit (d.aligned amount) d := by
  have halign : ∀ d : Document, Shows blank unit (.align amount d) d := by
    intro d indentation mode segments hblank h
    exact Shows.refl d (by simp [hblank, ink_spaces hspacing]) h
  cases d with
  | empty => exact Shows.refl _
  | _ => exact halign _

/-- Separators between documents take none of them away. -/
lemma mem_intersperse (separator : Document) {ds : List Document} (h : d ∈ ds) :
    d ∈ ds.intersperse separator := by
  induction ds with
  | nil => cases h
  | cons x xs ih =>
    cases xs with
    | nil => exact h
    | cons y ys =>
      rw [List.intersperse_cons_cons]
      rcases List.mem_cons.mp h with rfl | h
      · simp
      · simp [ih h]

/-- Documents with separators between them show each of them. -/
lemma shows_joined (separator : Document) {ds : List Document} (hmem : d ∈ ds) :
    Shows blank unit (joined separator ds) d :=
  shows_ofList (mem_intersperse separator hmem)

end Document

/-! ## Stretches of a text -/

namespace Mark

/-- The marks of segments put together are the marks of each. -/
lemma ofSegments_append (xs ys : List Segment) :
    ofSegments (xs ++ ys) = ofSegments xs ++ ofSegments ys := by
  induction xs with
  | nil => rfl
  | cons x xs ih => cases x <;> simp [ofSegments, ih]

/-- No line ends inside a text. -/
lemma endsLine_ofString (s : String) : endsLine (ofString s) = false := by
  have hends := endsLine_chars s.toList []
  simpa [ofString, endsLine] using hends

/-- What does not end a line does not end it behind other marks either. -/
lemma endsLine_append {ys : List Mark} (h : endsLine ys = false) (xs : List Mark) :
    endsLine (xs ++ ys) = endsLine xs := by
  induction xs with
  | nil => exact h
  | cons x xs ih => cases x <;> simp [endsLine, ih]

/-- What does not start with the end of a line leaves all that stands before it alone. -/
theorem kept_append {ys : List Mark} (h : endsLine ys = false) (xs : List Mark) :
    kept (xs ++ ys) = kept xs ++ kept ys := by
  induction xs with
  | nil => rfl
  | cons x xs ih =>
    cases x with
    | newline => simp [kept, ih]
    | char c =>
      have hends := endsLine_append h (.char c :: xs)
      rw [List.cons_append] at hends
      rw [List.cons_append, kept, kept, hends, ih]
      split
      · rfl
      · rfl

end Mark

namespace Document

variable {blank : Char → Bool} {page : Page} {d e : Document} {text : String}

/-- What a document shows is laid out as a stretch of the segments of its layout. -/
lemma exists_stretch_of_layout (h : d.layout page = .ok text) (hde : Shows blank page.unit d e) :
    ∃ indentation mode before stretch after, Text.ink blank indentation = [] ∧
      e.IsRendering page.unit indentation mode stretch ∧
      text.toList = Mark.kept (Mark.ofSegments (before ++ stretch ++ after)) := by
  obtain ⟨segments, hrendering, htext⟩ := exists_rendering_of_layout h
  obtain ⟨indentation, mode, before, stretch, after, hblank, hstretch, rfl⟩ :=
    hde Text.ink_empty hrendering
  exact ⟨indentation, mode, before, stretch, after, hblank, hstretch, htext⟩

/-- The ink of a steady document that is shown is the ink of a stretch of the text. -/
theorem exists_ink_of_shows (hspacing : Text.CoversSpacing blank)
    (hunit : Text.ink blank page.unit = []) (he : e.IsSteady) (h : d.layout page = .ok text)
    (hde : Shows blank page.unit d e) :
    ∃ before stretch after : String, text = before ++ stretch ++ after ∧
      Text.ink blank stretch = e.ink blank := by
  obtain ⟨indentation, mode, before, stretch, after, hblank, hstretch, htext⟩ :=
    exists_stretch_of_layout h hde
  have hink := ink_of_isRendering hspacing hunit hblank he hstretch
  have hall : Text.ink blank text =
      Segment.ink blank before ++ e.ink blank ++ Segment.ink blank after := by
    rw [Text.ink, htext, Mark.ink_kept hspacing, Mark.ink_ofSegments hspacing, Segment.ink_append,
      Segment.ink_append, hink]
  obtain ⟨cs, ds, hcs, hbefore, -⟩ := List.filter_eq_append_iff.mp hall
  obtain ⟨bs, es, rfl, -, hes⟩ := List.filter_eq_append_iff.mp hbefore
  refine ⟨String.ofList bs, String.ofList es, String.ofList ds, ?_, ?_⟩
  · apply String.toList_injective
    simpa using hcs
  · rw [Text.ink_ofList, hes]

end Document

end GlimmerFormat
