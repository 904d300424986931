import GlimmerFormat.Proofs.Layout.Decisions
import GlimmerFormat.Proofs.Layout.Lines

/-!
# Layout with everything broken

On a page of negative width nothing fits.  Every group breaks there and every part of a fill is
broken, so the layout of a document depends on nothing but the document and the indentation:
it is the spread layout.

* `Document.segments_of_lay_of_neg`: a page of negative width gives the spread layout.
* `Line.not_hasFlatBreak_of_spread`: no line of a spread layout has a break that stayed on it.
-/

namespace GlimmerFormat

namespace Document

mutual

/-- What a document is laid out as when every group and every part of a fill is broken. -/
def spread (unit indentation : String) : Document → List Segment
  | .empty => []
  | .text s => [.text s]
  | .newline _ => [.newline indentation]
  | .hardline => [.newline indentation]
  | .concat docs => spreadAll unit indentation docs
  | .indent d => spread unit (indentation ++ unit) d
  | .align amount d => spread unit (indentation ++ spaces amount) d
  | .group d => spread unit indentation d
  | .fill parts => spreadAll unit indentation parts
  | .ifBreak broken _ => spread unit indentation broken
  | .stray _ => []

/-- What documents one after the other are laid out as when everything is broken. -/
def spreadAll (unit indentation : String) : List Document → List Segment
  | [] => []
  | d :: ds => spread unit indentation d ++ spreadAll unit indentation ds

end

variable {page : Page} {indentation : String}

/-- Broken documents one after the other are laid out each by itself. -/
lemma spreadAll_eq_flatMap (unit : String) (ds : List Document) :
    spreadAll unit indentation ds = ds.flatMap (spread unit indentation) := by
  induction ds with
  | nil => rfl
  | cons d ds ih => rw [spreadAll, ih, List.flatMap_cons]

/-- Documents put together are broken what they are one after the other. -/
@[simp] lemma spread_ofList (unit : String) (ds : List Document) :
    (ofList ds).spread unit indentation = ds.flatMap (spread unit indentation) :=
  flatMap_ofList rfl (spreadAll_eq_flatMap unit) ds

/-- An alignment adds its spaces to the indentation of what is broken. -/
@[simp] lemma spread_aligned (unit : String) (amount : Int) (d : Document) :
    (d.aligned amount).spread unit indentation = d.spread unit (indentation ++ spaces amount) := by
  cases d <;> rfl

/-! ## Pages of negative width -/

/-- Nothing fits on a page of negative width. -/
lemma allFit_ne_true_of_neg (hwidth : page.width < 0) (d : Document) (rest : List Pending)
    (column : Nat) :
    Pending.allFit (⟨.flat, d⟩ :: rest) (page.width - column) ≠ .ok true := by
  intro hfit
  obtain ⟨r, hr, -⟩ := Pending.allFit_flat_cons.mp hfit
  have := spend_leaves_bounds hr
  omega

/-- The last content of a fill is broken on a page of negative width. -/
lemma lastMode_of_neg (hwidth : page.width < 0) {content : Document} {column : Nat} {mode : Mode}
    (h : page.lastMode content column = ⟨[], .ok mode⟩) : mode = .broken := by
  rcases Page.lastMode_eq_ok.mp h with ⟨-, ⟨hfit, -⟩ | ⟨-, rfl⟩⟩
  · exact absurd hfit (allFit_ne_true_of_neg hwidth content [] column)
  · rfl

/-- A content and the separator behind it are broken on a page of negative width. -/
lemma pairModes_of_neg (hwidth : page.width < 0) {content separator next : Document}
    {column : Nat} {modes : Mode × Mode}
    (h : page.pairModes content separator next column = ⟨[], .ok modes⟩) :
    modes = (.broken, .broken) := by
  obtain ⟨-, contentFits, pairFits, hcontent, hpair, rfl⟩ := Page.pairModes_eq_ok.mp h
  cases contentFits with
  | true => exact absurd hcontent (allFit_ne_true_of_neg hwidth _ _ _)
  | false =>
    cases pairFits with
    | true => exact absurd hpair (allFit_ne_true_of_neg hwidth _ _ _)
    | false => rfl

/-- Broken documents are laid out one after the other as their spread layouts if each is. -/
lemma segments_of_layAll_broken {ds : List Document}
    (h : ∀ d ∈ ds, ∀ {rest : List Pending} {column column' : Nat} {log : List LayoutEvent},
      d.lay page indentation .broken rest column = ⟨log, .ok column'⟩ →
      LayoutEvent.segments log = d.spread page.unit indentation)
    {rest : List Pending} {column column' : Nat} {log : List LayoutEvent}
    (hlay : layAll page indentation .broken ds rest column = ⟨log, .ok column'⟩) :
    LayoutEvent.segments log = spreadAll page.unit indentation ds := by
  induction ds generalizing column log with
  | nil =>
    obtain ⟨rfl, -⟩ := Traced.eq_of_ok hlay
    rfl
  | cons d ds ih =>
    obtain ⟨log₁, column₁, log₂, hd, hds, rfl⟩ := Traced.bind_eq_ok.mp hlay
    have hfirst := h d (by simp) hd
    have hothers := ih (fun e he => h e (by simp [he])) hds
    rw [LayoutEvent.segments_append, hfirst, hothers, spreadAll]

/-- A fill is laid out as its spread layout on a page of negative width if each part is. -/
lemma segments_of_layFill_of_neg (hwidth : page.width < 0) {mode : Mode} {parts : List Document}
    (h : ∀ d ∈ parts, ∀ {rest : List Pending} {column column' : Nat} {log : List LayoutEvent},
      d.lay page indentation .broken rest column = ⟨log, .ok column'⟩ →
      LayoutEvent.segments log = d.spread page.unit indentation)
    {rest : List Pending} {column column' : Nat} {log : List LayoutEvent}
    (hlay : layFill page indentation mode parts rest column = ⟨log, .ok column'⟩) :
    LayoutEvent.segments log = spreadAll page.unit indentation parts := by
  induction parts using List.twoStepInduction generalizing column log with
  | nil =>
    obtain ⟨rfl, -⟩ := Traced.eq_of_ok hlay
    rfl
  | singleton content =>
    obtain ⟨last, hlast, hcontent⟩ := layFill_last_eq_ok.mp hlay
    -- Nothing fits on a page of negative width, so the mode is broken.
    obtain rfl := lastMode_of_neg hwidth hlast
    have hfirst := h content (by simp) hcontent
    simp [spreadAll, hfirst]
  | cons_cons content separator parts ih _ =>
    cases parts with
    | nil =>
      obtain ⟨last, first, column₁, second, hlast, hcontent, hseparator, rfl⟩ :=
        layFill_two_eq_ok.mp hlay
      obtain rfl := lastMode_of_neg hwidth hlast
      have hfirst := h content (by simp) hcontent
      have hsecond := h separator (by simp) hseparator
      simp [spreadAll, hfirst, hsecond]
    | cons next parts =>
      obtain ⟨modes, first, column₁, second, column₂, others, hmodes, hcontent, hseparator, hparts,
        rfl⟩ := layFill_pair_eq_ok.mp hlay
      obtain rfl := pairModes_of_neg hwidth hmodes
      have hfirst := h content (by simp) hcontent
      have hsecond := h separator (by simp) hseparator
      have hothers := ih (fun e he => h e (by simp [he])) hparts
      rw [spreadAll, spreadAll, ← hfirst, ← hsecond, ← hothers]
      simp

/-- A page of negative width gives the spread layout. -/
theorem segments_of_lay_of_neg (hwidth : page.width < 0) {d : Document} {rest : List Pending}
    {column column' : Nat} {log : List LayoutEvent}
    (hlay : d.lay page indentation .broken rest column = ⟨log, .ok column'⟩) :
    LayoutEvent.segments log = d.spread page.unit indentation := by
  induction d using inductionOn generalizing indentation rest column column' log with
  | empty | text s | newline flat | hardline =>
    obtain ⟨rfl, -⟩ := Traced.eq_of_ok hlay
    rfl
  | stray => cases hlay
  | concat docs ih => exact segments_of_layAll_broken (fun d hd _ _ _ _ => ih d hd) hlay
  | fill parts ih => exact segments_of_layFill_of_neg hwidth (fun d hd _ _ _ _ => ih d hd) hlay
  | indent d ih => exact ih hlay
  | align amount d ih => exact ih hlay
  | group d ih =>
    rcases lay_group_eq_ok.mp hlay with ⟨hfit, -⟩ | ⟨-, behind, hd, rfl⟩
    · exact absurd hfit (allFit_ne_true_of_neg hwidth d rest column)
    · rw [LayoutEvent.segments_broke]
      exact ih hd
  | ifBreak broken flat ihb ihf => exact ihb hlay

/-- The segments of a layout on a page of negative width are those of the spread layout, with
every line but the last trimmed. -/
theorem segments_eq_of_neg {page : Page} (hwidth : page.width < 0) {d : Document}
    (hd : d.IsProper) : d.segments page = .ok (Segment.settle (d.spread page.unit "")) := by
  obtain ⟨log, column, hlay⟩ := exists_layOut page hd
  rw [segments, hlay, Laying.segments, ← segments_of_lay_of_neg hwidth hlay]
  rfl

example : spread "\t" "" (.group (.indent (.concat [.text "a", .line, .text "b"]))) =
    [.text "a", .newline "\t", .text "b"] := by decide

/-- In a spread layout no break stays on its line. -/
theorem flatBreak_notMem_spread {unit : String} {d : Document} {s : String} :
    .flatBreak s ∉ d.spread unit indentation := by
  induction d using inductionOn generalizing indentation with
  | empty | text t | newline flat | hardline | stray => simp [spread]
  | concat docs ih | fill docs ih =>
    rw [spread]
    induction docs with
    | nil => simp [spreadAll]
    | cons d ds ihds =>
      have hd := @ih d (by simp) indentation
      have hds := ihds fun e he => ih e (by simp [he])
      simp [spreadAll, hd, hds]
  | indent d ih | align amount d ih | group d ih => exact ih
  | ifBreak broken flat ihb ihf => exact ihb

end Document

/-! ## Lines of a spread layout -/

/-- Trimming makes no break stay on its line. -/
lemma Segment.flatBreak_mem_of_mem_trimEnd {before : List Segment} {s : String}
    (h : .flatBreak s ∈ Segment.trimEnd before) : ∃ t, .flatBreak t ∈ before := by
  induction before with
  | nil => simp [trimEnd] at h
  | cons first before ih =>
    rw [trimEnd] at h
    split at h
    · obtain ⟨t, ht⟩ := ih h
      exact ⟨t, by simp [ht]⟩
    · rcases List.mem_cons.mp h with hfirst | hbefore
      · cases first with
        | text t => simp [trim] at hfirst
        | flatBreak t => exact ⟨t, by simp⟩
        | newline indentation => simp [trim] at hfirst
      · exact ⟨s, by simp [hbefore]⟩

namespace Line

/-- A flat break on a trimmed line was there before. -/
lemma hasFlatBreak_of_trim {l : Line} (h : l.trim.HasFlatBreak) : l.HasFlatBreak := by
  obtain ⟨s, hs⟩ := h
  have hmem : .flatBreak s ∈ Segment.trimEnd l.pieces.reverse := by
    unfold trim at hs
    split at hs
    · simp at hs
    · next htrim =>
      rw [htrim]
      simpa [or_comm] using hs
  obtain ⟨t, ht⟩ := Segment.flatBreak_mem_of_mem_trimEnd hmem
  exact ⟨t, by simpa using ht⟩

/-- A break that stays on a line comes from before or from the segments. -/
lemma hasFlatBreak_next {l : Line} {s : Segment} (h : (l.next s).HasFlatBreak) :
    l.HasFlatBreak ∨ ∃ t, s = .flatBreak t := by
  obtain ⟨t, ht⟩ := h
  cases s with
  | newline indentation => simp [next] at ht
  | text u | flatBreak u =>
    rcases List.mem_append.mp ht with ht | ht
    · exact .inl ⟨t, ht⟩
    · exact .inr ⟨t, (List.mem_singleton.mp ht).symm⟩

/-- Lines that hold no break but those of the line before hold none if it holds none. -/
lemma not_hasFlatBreak_of_mem {l k : Line} {ss : List Segment} (hl : ¬ l.HasFlatBreak)
    (hss : ∀ t, .flatBreak t ∉ ss) (hk : k ∈ l.closedLines ss ++ [l.openLine ss]) :
    ¬ k.HasFlatBreak := by
  induction ss generalizing l with
  | nil =>
    obtain rfl : k = l := by simpa using hk
    exact hl
  | cons s ss ih =>
    have hnext : ¬ (l.next s).HasFlatBreak := by
      intro h
      rcases hasFlatBreak_next h with h | ⟨t, rfl⟩
      · exact hl h
      · exact hss t (by simp)
    rw [closedLines_cons, openLine_cons, List.append_assoc] at hk
    rcases List.mem_append.mp hk with hk | hk
    · cases hs : s.isNewline with
      | true =>
        obtain rfl : k = l := by simpa [hs] using hk
        exact hl
      | false => simp [hs] at hk
    · exact ih hnext (fun t ht => hss t (by simp [ht])) hk

/-- No line of a spread layout has a break that stayed on it. -/
theorem not_hasFlatBreak_of_spread {unit indentation : String} {d : Document} {l : Line}
    (hl : l ∈ ofSegments (Segment.settle (d.spread unit indentation))) : ¬ l.HasFlatBreak := by
  have hall : ∀ k ∈ closedLines first (d.spread unit indentation) ++
      [openLine first (d.spread unit indentation)], ¬ k.HasFlatBreak := fun k hk =>
    not_hasFlatBreak_of_mem (by simp [first, HasFlatBreak])
      (fun _ => Document.flatBreak_notMem_spread) hk
  rw [ofSegments_settle] at hl
  rcases List.mem_append.mp hl with hl | hl
  · obtain ⟨k, hk, rfl⟩ := List.mem_map.mp hl
    exact fun h => hall k (by simp [hk]) (hasFlatBreak_of_trim h)
  · exact hall l (List.mem_append_right _ hl)

end Line

end GlimmerFormat
