import GlimmerFormat.Proofs.Document.Regular
import GlimmerFormat.Proofs.Layout.Flat
import GlimmerFormat.Proofs.Layout.Spread

/-!
# Lines that are too wide

No choice of breaks makes every document fit on every page.  A layout of a regular document
does what can be done: each line that is wider than the page is a line of the spread layout,
where everything is broken, so breaking more would not have made it shorter.

The proof follows a layout beside the spread layout.  `Page.Tracks` is what holds of their open
lines at each point: the lines are the same, unless a break stayed on the one of the layout,
and then what follows fits on it up to the next newline.

* `Page.matches_of_lay`: laying out a regular document keeps the open lines so, and every line
  too wide that it ends is ended in the spread layout as well.
* `Document.overflowing_line_mem_spread`: lines of a regular document that are too wide.
* `Document.overflowing_line_unavoidable`: lines of a document without fills.
-/

namespace GlimmerFormat

namespace Pending

/-! ## Breaks in what waits -/

/-- What waits starts with a newline, or there is nothing: it fits wherever the line ends. -/
def Breaks (ps : List Pending) : Prop :=
  ∀ room, 0 ≤ room → allFit ps room = .ok true

/-- Where nothing waits the line ends. -/
lemma breaks_nil : Breaks [] :=
  fun _ _ => rfl

/-- What fits like something that starts with a newline fits wherever that does. -/
lemma Breaks.of_alike {xs ys : List Pending} (h : Alike xs ys) (hys : Breaks ys) : Breaks xs :=
  fun room hroom => (h room hroom).trans (hys room hroom)

/-- Broken documents that start with a break start with a newline, or what follows does. -/
lemma breaks_map_append {follows : Bool} {ds : List Document} {rest : List Pending}
    (h : ∀ d ∈ ds, ∀ {follows : Bool} {rest : List Pending}, d.startsWithBreak follows = true →
      (follows = true → Breaks rest) → Breaks (⟨.broken, d⟩ :: rest))
    (hds : Document.startWithBreak follows ds = true) (hrest : follows = true → Breaks rest) :
    Breaks (ds.map (Pending.mk .broken) ++ rest) := by
  induction ds with
  | nil => exact hrest hds
  | cons d ds ih =>
    exact h d (by simp) hds fun hstart => ih (fun e he => h e (by simp [he])) hstart

/-- A broken document that starts with a break fits wherever the line ends. -/
lemma breaks_cons {follows : Bool} {d : Document} {rest : List Pending}
    (hd : d.startsWithBreak follows = true) (hrest : follows = true → Breaks rest) :
    Breaks (⟨.broken, d⟩ :: rest) := by
  induction d using Document.inductionOn generalizing follows rest with
  | empty => exact (hrest hd).of_alike (alike_empty .broken rest)
  | text s | fill parts ih | stray => cases hd
  | newline flat | hardline => exact fun _ _ => rfl
  | concat docs ih =>
    exact (breaks_map_append (fun d hmem _ _ => ih d hmem) hd hrest).of_alike
      (alike_concat .broken docs rest)
  | indent d ih => exact (ih hd hrest).of_alike (alike_indent .broken d rest)
  | align amount d ih => exact (ih hd hrest).of_alike (alike_align .broken amount d rest)
  | group d ih => exact (ih hd hrest).of_alike (alike_group .broken d rest)
  | ifBreak broken flat ihb ihf =>
    exact (ihb hd hrest).of_alike (alike_ifBreak_broken broken flat rest)

end Pending

namespace Page

variable {page : Page} {rest : List Pending} {column column' : Nat} {l k : Line}

/-! ## Two open lines -/

/-- A line that is open at a column of a layout, before what follows, and the line that is open
there in the spread layout.  They are the same, or what follows fits on the line. -/
structure Tracks (page : Page) (rest : List Pending) (column : Nat) (l k : Line) : Prop where
  column_eq : column = l.width page.tabWidth
  eq_or_fits : l = k ∨ (0 ≤ page.width - column ∧
    Pending.allFit rest (page.width - column) = .ok true)

/-- Segments of a layout beside those of the spread layout: a line too wide that the former end
is ended by the latter, and the lines that are open behind both are as before. -/
structure Matches (page : Page) (rest : List Pending) (column : Nat) (l k : Line)
    (xs ys : List Segment) : Prop where
  closed : ∀ m ∈ l.closedLines xs, page.width < m.width page.tabWidth → m ∈ k.closedLines ys
  opened : page.Tracks rest column (l.openLine xs) (k.openLine ys)

/-- What follows may be replaced by what is measured alike. -/
lemma Tracks.of_alike {xs ys : List Pending} (h : Pending.Alike xs ys)
    (ht : page.Tracks xs column l k) : page.Tracks ys column l k := by
  refine ⟨ht.column_eq, ht.eq_or_fits.imp_right ?_⟩
  rintro ⟨hroom, hfit⟩
  exact ⟨hroom, (h _ hroom).symm.trans hfit⟩

/-- A line that is too wide is a line of the spread layout. -/
lemma Tracks.eq_of_lt (ht : page.Tracks rest column l k)
    (hwide : page.width < l.width page.tabWidth) : l = k := by
  rcases ht.eq_or_fits with heq | ⟨hroom, -⟩
  · exact heq
  · have := ht.column_eq
    omega

/-- No segments change nothing. -/
lemma matches_nil (ht : page.Tracks rest column l k) : page.Matches rest column l k [] [] :=
  ⟨by simp, ht⟩

/-- Segments one after the other. -/
lemma Matches.append {between : List Pending} {xs ys xs' ys' : List Segment}
    (h : page.Matches between column l k xs ys)
    (h' : page.Tracks between column (l.openLine xs) (k.openLine ys) →
      page.Matches rest column' (l.openLine xs) (k.openLine ys) xs' ys') :
    page.Matches rest column' l k (xs ++ xs') (ys ++ ys') := by
  have hbehind := h' h.opened
  refine ⟨?_, ?_⟩
  · intro m hm hwide
    rw [Line.closedLines_append] at hm ⊢
    rcases List.mem_append.mp hm with hm | hm
    · exact List.mem_append_left _ (h.closed m hm hwide)
    · exact List.mem_append_right _ (hbehind.closed m hm hwide)
  · rw [Line.openLine_append, Line.openLine_append]
    exact hbehind.opened

/-! ## One segment -/

/-- The line behind segments without newlines is wider by their length. -/
lemma width_openLine_of_inline (tabWidth : Int) (l : Line) {ss : List Segment}
    (h : ∀ s ∈ ss, s.isNewline = false) :
    (l.openLine ss).width tabWidth = l.width tabWidth + (Segment.joined ss).length := by
  rw [Line.openLine_of_inline l h]
  simp only [Line.width, Segment.joined_append, String.length_append]
  omega

/-- A newline ends both open lines. -/
lemma matches_newline (ht : page.Tracks rest column l k) (indentation : String)
    (behind : List Pending) :
    page.Matches behind (Text.columns page.tabWidth indentation) l k
      [.newline indentation] [.newline indentation] := by
  refine ⟨?_, ?_, .inl rfl⟩
  · intro m hm hwide
    obtain rfl : m = l := by simpa [Line.closedLines_cons, Segment.isNewline] using hm
    rw [ht.eq_of_lt hwide]
    simp [Line.closedLines_cons, Segment.isNewline]
  · simp [Line.next, Line.width]

/-- A text stands on both open lines. -/
lemma matches_text {mode : Mode} {s : String}
    (ht : page.Tracks (⟨mode, .text s⟩ :: rest) column l k) :
    page.Matches rest (column + s.length) l k [.text s] [.text s] := by
  have hinline : ∀ t ∈ [Segment.text s], t.isNewline = false := by simp [Segment.isNewline]
  refine ⟨?_, ?_, ?_⟩
  · rw [Line.closedLines_of_inline l hinline]
    simp
  · rw [width_openLine_of_inline _ _ hinline, ht.column_eq]
    simp [Segment.render]
  · rcases ht.eq_or_fits with rfl | ⟨hroom, hfit⟩
    · exact .inl rfl
    · rw [Pending.allFit_cons] at hfit
      cases hm : Document.spend mode (.text s) (page.width - column) with
      | leaves r =>
        obtain ⟨hnonneg, hr⟩ := Measure.ofRoom_eq_leaves.mp hm
        rw [hm, Measure.leaves_answer, ← hr] at hfit
        have hcolumn : page.width - ((column + s.length : Nat) : Int) =
            page.width - column - s.length := by
          push_cast
          omega
        rw [hcolumn]
        exact .inr ⟨hnonneg, hfit⟩
      | fits => exact absurd hm (Measure.ofRoom_ne_fits _)
      | overflows => simp [hm, Measure.answer] at hfit
      | stray => exact absurd hm (Measure.ofRoom_ne_stray _ _)

/-- What was laid out without newlines because it fits before what follows. -/
lemma matches_of_fits {xs ys : List Segment} (ht : column = l.width page.tabWidth)
    (hinline : ∀ s ∈ xs, s.isNewline = false)
    (hroom : 0 ≤ page.width - (column + (Segment.joined xs).length : Nat))
    (hfit : Pending.allFit rest (page.width - (column + (Segment.joined xs).length : Nat)) =
      .ok true) :
    page.Matches rest (column + (Segment.joined xs).length) l k xs ys := by
  refine ⟨?_, ?_, .inr ⟨hroom, hfit⟩⟩
  · rw [Line.closedLines_of_inline l hinline]
    simp
  · rw [width_openLine_of_inline _ _ hinline, ht]

/-! ## Paragraphs -/

/-- A text that fits fits as the first of a paragraph that a break follows. -/
lemma allFit_paragraph {next : Document} {parts : List Document}
    (hparts : Document.IsParagraph (next :: parts)) (hrest : Pending.Breaks rest) {room r : Int}
    (hroom : 0 ≤ room) (hnext : next.spend .flat room = .leaves r) :
    Pending.allFit (⟨.broken, .fill (next :: parts)⟩ :: rest) room = .ok true := by
  rw [Pending.alike_fill .broken (next :: parts) rest room hroom]
  cases hparts with
  | last s =>
    have hs : Document.spend .broken (.text s) room = .leaves r := hnext
    rw [List.map_singleton, List.singleton_append, Pending.allFit_cons, hs]
    exact hrest r (Document.spend_leaves_bounds hnext).1
  | more s flat h =>
    have hs : Document.spend .broken (.text s) room = .leaves r := hnext
    rw [List.map_cons, List.cons_append, Pending.allFit_cons, hs]
    rfl

/-- Where the texts on both sides of a break fit on the line together with it, the break stays
and the paragraph behind it fits. -/
lemma matches_of_pairFits (k : Line) {s flat : String} (indentation : String) {next : Document}
    {parts : List Document} (hparts : Document.IsParagraph (next :: parts))
    (hrest : Pending.Breaks rest) (ht : column = l.width page.tabWidth)
    (hpair : Pending.allFit [⟨.flat, .concat [.text s, .newline flat, next]⟩]
      (page.width - column) = .ok true) :
    page.Matches (⟨.broken, .fill (next :: parts)⟩ :: rest) (column + s.length + flat.length) l k
      [.text s, .flatBreak flat] [.text s, .newline indentation] := by
  obtain ⟨r, hr, -⟩ := Pending.allFit_flat_cons.mp hpair
  obtain ⟨-, hr⟩ := Measure.ofRoom_andThen_eq_leaves.mp hr
  obtain ⟨r₁, h₁, hr⟩ := Measure.andThen_eq_leaves.mp hr
  obtain ⟨r₂, h₂, hr⟩ := Measure.andThen_eq_leaves.mp hr
  obtain ⟨r₃, h₃, -⟩ := Measure.andThen_eq_leaves.mp hr
  obtain ⟨-, hr₁⟩ := Measure.ofRoom_eq_leaves.mp h₁
  obtain ⟨hroom, hr₂⟩ := Measure.ofRoom_eq_leaves.mp h₂
  have hlength : (Segment.joined [.text s, .flatBreak flat]).length = s.length + flat.length := by
    simp [Segment.render]
  have hleft : page.width - ((column + (s.length + flat.length) : Nat) : Int) = r₂ := by
    push_cast
    omega
  rw [Nat.add_assoc, ← hlength]
  refine matches_of_fits ht (by simp [Segment.isNewline]) ?_ ?_
  · rw [hlength, hleft]
    omega
  · rw [hlength, hleft]
    exact allFit_paragraph hparts hrest (by omega) h₃

/-- Laying out a paragraph that a break follows. -/
lemma matches_of_layFill {indentation : String} {mode : Mode} {parts : List Document}
    (hparts : Document.IsParagraph parts) (hrest : Pending.Breaks rest) {log : List LayoutEvent}
    (hlay : Document.layFill page indentation mode parts rest column = ⟨log, .ok column'⟩)
    (ht : page.Tracks (⟨.broken, .fill parts⟩ :: rest) column l k) :
    page.Matches rest column' l k (LayoutEvent.segments log)
      (Document.spreadAll page.unit indentation parts) := by
  have hstart := ht.of_alike (Pending.alike_fill .broken parts rest)
  induction hparts generalizing column log l k with
  | nil =>
    obtain ⟨rfl, rfl⟩ := Traced.eq_of_ok hlay
    exact matches_nil hstart
  | last s =>
    obtain ⟨last, -, hcontent⟩ := Document.layFill_last_eq_ok.mp hlay
    obtain ⟨rfl, rfl⟩ := Traced.eq_of_ok hcontent
    exact matches_text hstart
  | @more s flat next parts hparts ih =>
    obtain ⟨modes, first, column₁, second, column₂, others, hmodes, hcontent, hseparator, hothers,
      rfl⟩ := Document.layFill_pair_eq_ok.mp hlay
    obtain ⟨-, contentFits, pairFits, -, hfit, rfl⟩ := Page.pairModes_eq_ok.mp hmodes
    obtain ⟨rfl, rfl⟩ := Traced.eq_of_ok hcontent
    -- What stands behind the pair is a paragraph again.
    have hrestart : ∀ {column : Nat} {l k : Line} {log : List LayoutEvent},
        Document.layFill page indentation mode (next :: parts) rest column =
          ⟨log, .ok column'⟩ →
        page.Tracks (⟨.broken, .fill (next :: parts)⟩ :: rest) column l k →
        page.Matches rest column' l k (LayoutEvent.segments log)
          (Document.spreadAll page.unit indentation (next :: parts)) := fun h ht =>
      ih h ht (ht.of_alike (Pending.alike_fill .broken (next :: parts) rest))
    cases pairFits with
    | true =>
      obtain ⟨rfl, rfl⟩ := Traced.eq_of_ok hseparator
      exact (matches_of_pairFits k indentation hparts hrest ht.column_eq hfit).append
        (hrestart hothers)
    | false =>
      -- Whether its content is flat or broken, the separator is a newline.
      obtain ⟨rfl, hcolumn⟩ : second = [.emitted (.newline indentation)] ∧
          column₂ = Text.columns page.tabWidth indentation := by
        cases contentFits <;>
        · obtain ⟨rfl, hcolumn⟩ := Traced.eq_of_ok hseparator
          exact ⟨rfl, hcolumn.symm⟩
      subst hcolumn
      have hline := (matches_text hstart).append fun h =>
        matches_newline h indentation (⟨.broken, .fill (next :: parts)⟩ :: rest)
      exact hline.append (hrestart hothers)

/-! ## Regular documents -/

/-- Laying out regular documents one after the other, if laying out each of them keeps the open
lines together. -/
lemma matches_of_layAll {indentation : String} {follows : Bool} {ds : List Document}
    (h : ∀ d ∈ ds, ∀ {follows : Bool} {rest : List Pending} {column column' : Nat} {l k : Line}
      {log : List LayoutEvent}, d.IsRegular follows → (follows = true → Pending.Breaks rest) →
      d.lay page indentation .broken rest column = ⟨log, .ok column'⟩ →
      page.Tracks (⟨.broken, d⟩ :: rest) column l k →
      page.Matches rest column' l k (LayoutEvent.segments log)
        (d.spread page.unit indentation))
    (hds : Document.AreRegular follows ds) (hrest : follows = true → Pending.Breaks rest)
    {log : List LayoutEvent}
    (hlay : Document.layAll page indentation .broken ds rest column = ⟨log, .ok column'⟩)
    (ht : page.Tracks (⟨.broken, .concat ds⟩ :: rest) column l k) :
    page.Matches rest column' l k (LayoutEvent.segments log)
      (Document.spreadAll page.unit indentation ds) := by
  induction ds generalizing column log l k with
  | nil =>
    obtain ⟨rfl, rfl⟩ := Traced.eq_of_ok hlay
    exact matches_nil (ht.of_alike (Pending.alike_concat .broken [] rest))
  | cons d ds ih =>
    obtain ⟨log₁, column₁, log₂, hd, hothers, rfl⟩ := Traced.bind_eq_ok.mp hlay
    have hbehind : Document.startWithBreak follows ds = true →
        Pending.Breaks (⟨.broken, .concat ds⟩ :: rest) := fun hstart =>
      Pending.breaks_cons (d := .concat ds) hstart hrest
    have hfirst := h d (by simp) hds.1 hbehind hd
      (ht.of_alike (Pending.alike_concat_cons .broken d ds rest))
    rw [LayoutEvent.segments_append, Document.spreadAll]
    exact hfirst.append (ih (fun e he => h e (by simp [he])) hds.2 hothers)

/-- A group that fits before what follows it. -/
lemma matches_of_flat_group {indentation : String} {d : Document} (hd : d.HasOddFills)
    {log : List LayoutEvent} {ys : List Segment}
    (hlay : d.lay page indentation .flat rest column = ⟨log, .ok column'⟩)
    (hfit : Pending.allFit (⟨.flat, d⟩ :: rest) (page.width - column) = .ok true)
    (ht : column = l.width page.tabWidth) :
    page.Matches rest column' l k (LayoutEvent.segments log) ys := by
  obtain ⟨r, hr, hbehind⟩ := Pending.allFit_flat_cons.mp hfit
  rw [Document.lay_flat hd hr] at hlay
  obtain ⟨rfl, rfl⟩ := Traced.eq_of_ok hlay
  have hnonneg := (Document.spend_leaves_bounds hr).1
  have hleft : page.width - ((column + d.flatText.length : Nat) : Int) = r := by
    have := Document.spend_flat_leaves hr
    push_cast
    omega
  rw [LayoutEvent.segments_map_emitted]
  refine matches_of_fits ht (fun _ => Document.isNewline_of_mem_flatPieces) ?_ ?_
  · exact hleft ▸ hnonneg
  · exact hleft ▸ hbehind

/-- Laying out a regular document keeps the open lines of the layout and of the spread layout
together, and every line too wide that the former ends is ended by the latter. -/
theorem matches_of_lay {indentation : String} {follows : Bool} {d : Document}
    (hd : d.IsRegular follows) (hrest : follows = true → Pending.Breaks rest)
    {log : List LayoutEvent}
    (hlay : d.lay page indentation .broken rest column = ⟨log, .ok column'⟩)
    (ht : page.Tracks (⟨.broken, d⟩ :: rest) column l k) :
    page.Matches rest column' l k (LayoutEvent.segments log) (d.spread page.unit indentation) := by
  induction d using Document.inductionOn
    generalizing indentation follows rest column column' l k log with
  | empty =>
    obtain ⟨rfl, rfl⟩ := Traced.eq_of_ok hlay
    exact matches_nil (ht.of_alike (Pending.alike_empty .broken rest))
  | text s =>
    obtain ⟨rfl, rfl⟩ := Traced.eq_of_ok hlay
    exact matches_text ht
  | newline flat | hardline =>
    obtain ⟨rfl, rfl⟩ := Traced.eq_of_ok hlay
    exact matches_newline ht indentation rest
  | stray => exact hd.elim
  | concat docs ih =>
    exact matches_of_layAll (fun d hmem _ _ _ _ _ _ _ hd hrest hlay => ih d hmem hd hrest hlay)
      hd hrest hlay ht
  | fill parts ih => exact matches_of_layFill hd.1 (hrest hd.2) hlay ht
  | indent d ih =>
    exact ih hd hrest hlay (ht.of_alike (Pending.alike_indent .broken d rest))
  | align amount d ih =>
    exact ih hd hrest hlay (ht.of_alike (Pending.alike_align .broken amount d rest))
  | group d ih =>
    rcases Document.lay_group_eq_ok.mp hlay with ⟨hfit, hflat⟩ | ⟨-, behind, hbroken, rfl⟩
    · have hregular : d.IsRegular follows := hd
      exact matches_of_flat_group hregular.hasOddFills hflat hfit ht.column_eq
    · rw [LayoutEvent.segments_broke]
      exact ih hd hrest hbroken (ht.of_alike (Pending.alike_group .broken d rest))
  | ifBreak broken flat ihb ihf =>
    exact ihb hd.1 hrest hlay (ht.of_alike (Pending.alike_ifBreak_broken broken flat rest))

end Page

/-! ## Lines that are too wide -/

namespace Document

/-- The lines of a layout of a regular document: each line wider than the page is a line of the
spread layout. -/
theorem overflowing_line_mem_spread (page : Page) {d : Document} (hd : d.IsRegular true) :
    ∃ segments, d.segments page = .ok segments ∧
      ∀ l ∈ Line.ofSegments segments, page.width < l.width page.tabWidth →
        l ∈ Line.ofSegments (Segment.settle (d.spread page.unit "")) := by
  obtain ⟨log, column, hlay⟩ := exists_layOut page hd.isProper
  have hstart : page.Tracks [⟨.broken, d⟩] 0 .first .first := ⟨by simp [Line.first, Line.width],
    .inl rfl⟩
  obtain ⟨hclosed, hopened⟩ := Page.matches_of_lay hd (fun _ => Pending.breaks_nil) hlay hstart
  refine ⟨Segment.settle (LayoutEvent.segments log), ?_, ?_⟩
  · rw [segments, hlay]
    rfl
  · intro l hl hwide
    rw [Line.ofSegments_settle] at hl ⊢
    rcases List.mem_append.mp hl with hl | hl
    · obtain ⟨m, hm, rfl⟩ := List.mem_map.mp hl
      have hinline : m.IsInline :=
        Line.isInline_of_mem_closedLines (by simp [Line.IsInline, Line.first]) hm
      have hnarrower := Line.width_trim_le page.tabWidth hinline
      have hspread := hclosed m hm (by omega)
      exact List.mem_append_left _ (List.mem_map_of_mem hspread)
    · obtain rfl := List.mem_singleton.mp hl
      rw [hopened.eq_of_lt hwide]
      exact List.mem_append_right _ (List.mem_singleton_self _)

/-- A document without fills has a layout on every page, and each of its lines that is wider
than the page is a line of its layout on a page of negative width, where every group is broken.
So it holds no break that stayed on it. -/
theorem overflowing_line_unavoidable (page : Page) {d : Document} (hproper : d.IsProper)
    (hfree : d.IsFillFree) :
    ∃ segments broken, d.segments page = .ok segments ∧
      d.segments { page with width := -1 } = .ok broken ∧
      ∀ l ∈ Line.ofSegments segments, page.width < l.width page.tabWidth →
        l ∈ Line.ofSegments broken ∧ ¬ l.HasFlatBreak := by
  obtain ⟨segments, hsegments, hlines⟩ :=
    overflowing_line_mem_spread page (isRegular_of_isFillFree hproper hfree)
  have hbroken : d.segments { page with width := -1 } =
      .ok (Segment.settle (d.spread page.unit "")) := segments_eq_of_neg (by simp) hproper
  refine ⟨segments, _, hsegments, hbroken, ?_⟩
  intro l hl hwide
  have hspread := hlines l hl hwide
  exact ⟨hspread, Line.not_hasFlatBreak_of_spread hspread⟩

/-- Two groups, of which the second is too wide for its line and holds a text that is too wide
for the page. -/
theorem wide_text_unavoidable :
    ∃ segments broken,
      Document.segments ⟨4, "\t", 2⟩ (.concat [.group (.concat [.text "a", .line, .text "b"]),
        .hardline, .group (.indent (.concat [.text "c", .line, .text "wide"]))]) = .ok segments ∧
      Document.segments ⟨-1, "\t", 2⟩ (.concat [.group (.concat [.text "a", .line, .text "b"]),
        .hardline, .group (.indent (.concat [.text "c", .line, .text "wide"]))]) = .ok broken ∧
      ∀ l ∈ Line.ofSegments segments, (4 : Int) < l.width 2 →
        l ∈ Line.ofSegments broken ∧ ¬ l.HasFlatBreak := by
  refine overflowing_line_unavoidable ⟨4, "\t", 2⟩ ?_ ?_
  · simp [IsProper, Everywhere, EverywhereAll, NotStray, line]
  · simp [IsFillFree, Everywhere, EverywhereAll, NotFill, line]

end Document

end GlimmerFormat
