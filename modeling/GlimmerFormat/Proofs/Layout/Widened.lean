import GlimmerFormat.Proofs.Layout.Decisions
import GlimmerFormat.Proofs.Layout.Fitting
import GlimmerFormat.Proofs.Layout.Flat
import GlimmerFormat.Proofs.Layout.Lines

/-!
# One line on a wider page

More room can make a layout longer: what fits on its line there may leave less room to what follows
than a break would.  A layout of a single line is different.  All of it is flat text, whatever was
decided on the way, so on a wider page everything starts at the same column and only more of it is
flat.  A group that is flat there has its flat text on the line, and one that is not was broken on
the narrower page too, before the same documents, so that the two layouts can be followed side by
side.

* `LayoutEvent.IsInline`: layouts without newlines.
* `Document.lay_of_isInline`: a straight document that is laid out without a newline is laid out as
  its flat text.
* `Document.staysInline_of_wider`: and so it is on a wider page.
* `Document.segments_of_wider`: the layout of a whole document.
-/

namespace GlimmerFormat

/-! ## Layouts without newlines -/

/-- No newline is emitted. -/
def LayoutEvent.IsInline (log : List LayoutEvent) : Prop :=
  ∀ s ∈ segments log, s.isNewline = false

namespace LayoutEvent

/-- Two records in turn emit no newline exactly if neither does. -/
lemma isInline_append {xs ys : List LayoutEvent} :
    IsInline (xs ++ ys) ↔ IsInline xs ∧ IsInline ys := by
  simp only [IsInline, segments_append, List.forall_mem_append]

/-- A group that breaks emits no newline by itself. -/
lemma isInline_broke {column : Nat} {log : List LayoutEvent} :
    IsInline (.broke column :: log) ↔ IsInline log := Iff.rfl

/-- Emitting a newline does not stay on the line. -/
lemma not_isInline_newline (indentation : String) :
    ¬ IsInline [.emitted (.newline indentation)] := by
  simp [IsInline, Segment.isNewline]

/-- What is flat emits no newline. -/
lemma isInline_flatPieces (d : Document) : IsInline (d.flatPieces.map .emitted) := by
  intro s hs
  rw [segments_map_emitted] at hs
  exact Document.isNewline_of_mem_flatPieces hs

end LayoutEvent

/-- Segments that are settled without newlines hold none. -/
lemma Segment.inline_of_settle {ss : List Segment} (h : ∀ s ∈ settle ss, s.isNewline = false) :
    ∀ s ∈ ss, s.isNewline = false := by
  have hlines := Line.ofSegments_settle ss
  rw [Line.ofSegments, Line.closedLines_of_inline .first h, List.nil_append] at hlines
  have hclosed : Line.first.closedLines ss = [] := by
    simpa using congrArg List.length hlines
  exact Line.inline_of_closedLines_eq_nil .first hclosed

open LayoutEvent (IsInline)

namespace Page

variable {P Q : Page} {column : Nat}

/-! ## Decisions on a wider page -/

/-- A document that is flat before others on a page is so on a wider one. -/
lemma allFit_of_wider (hwidth : P.width ≤ Q.width) {d : Document} {rest : List Pending}
    (hproper : Pending.AllProper (⟨.flat, d⟩ :: rest))
    (h : Pending.allFit (⟨.flat, d⟩ :: rest) (P.width - column) = .ok true) :
    Pending.allFit (⟨.flat, d⟩ :: rest) (Q.width - column) = .ok true :=
  Pending.allFit_flat_mono hproper (by omega) h

/-- A last content fits on the wider page, or it is broken on both. -/
lemma lastMode_of_wider (hwidth : P.width ≤ Q.width) {content : Document}
    (hcontent : content.IsProper) {last₁ last₂ : Mode}
    (h₁ : P.lastMode content column = ⟨[], .ok last₁⟩)
    (h₂ : Q.lastMode content column = ⟨[], .ok last₂⟩) :
    last₂ = .flat ∧ Pending.allFit [⟨.flat, content⟩] (Q.width - column) = .ok true ∨
      last₁ = .broken ∧ last₂ = .broken := by
  obtain ⟨-, h₁⟩ := lastMode_eq_ok.mp h₁
  obtain ⟨-, ⟨hfits, rfl⟩ | ⟨hfails, rfl⟩⟩ := lastMode_eq_ok.mp h₂
  · exact .inl ⟨rfl, hfits⟩
  · rcases h₁ with ⟨hfits, -⟩ | ⟨-, rfl⟩
    · have hproper : Pending.AllProper [⟨.flat, content⟩] := by simpa [Pending.AllProper]
      rw [allFit_of_wider hwidth hproper hfits] at hfails
      cases hfails
    · exact .inr ⟨rfl, rfl⟩

/-- A separator fits with its contents on the wider page; or it is broken on both pages, and the
content before it fits on the wider one; or both are broken on both. -/
lemma pairModes_of_wider (hwidth : P.width ≤ Q.width) {content separator next : Document}
    (hcontent : content.IsProper) (hseparator : separator.IsProper) (hnext : next.IsProper)
    {modes₁ modes₂ : Mode × Mode}
    (h₁ : P.pairModes content separator next column = ⟨[], .ok modes₁⟩)
    (h₂ : Q.pairModes content separator next column = ⟨[], .ok modes₂⟩) :
    modes₂ = (.flat, .flat) ∧
        Pending.allFit [⟨.flat, .concat [content, separator, next]⟩] (Q.width - column) =
          .ok true ∨
      modes₁.2 = .broken ∧ modes₂ = (.flat, .broken) ∧
        Pending.allFit [⟨.flat, content⟩] (Q.width - column) = .ok true ∨
      modes₁ = (.broken, .broken) ∧ modes₂ = (.broken, .broken) := by
  have hcontentProper : Pending.AllProper [⟨.flat, content⟩] := by simpa [Pending.AllProper]
  have hpairProper : Pending.AllProper [⟨.flat, .concat [content, separator, next]⟩] := by
    simpa [Pending.AllProper] using ⟨trivial, hcontent, hseparator, hnext, trivial⟩
  obtain ⟨-, contentFits₁, pairFits₁, hcontent₁, hpair₁, rfl⟩ := pairModes_eq_ok.mp h₁
  obtain ⟨-, contentFits₂, pairFits₂, hcontent₂, hpair₂, rfl⟩ := pairModes_eq_ok.mp h₂
  have hcontentFits : contentFits₁ = true → contentFits₂ = true := by
    rintro rfl
    simpa [allFit_of_wider hwidth hcontentProper hcontent₁] using hcontent₂.symm
  have hpairFits : pairFits₁ = true → pairFits₂ = true := by
    rintro rfl
    simpa [allFit_of_wider hwidth hpairProper hpair₁] using hpair₂.symm
  -- What fits on the narrower page fits on the wider one, so no other case is left.
  cases pairFits₂ with
  | true => exact .inl ⟨rfl, hpair₂⟩
  | false =>
    obtain rfl : pairFits₁ = false := by simpa using hpairFits
    cases contentFits₂ with
    | true => exact .inr (.inl ⟨by cases contentFits₁ <;> rfl, rfl, hcontent₂⟩)
    | false =>
      obtain rfl : contentFits₁ = false := by simpa using hcontentFits
      exact .inr (.inr ⟨rfl, rfl⟩)

end Page

namespace Document

variable {page P Q : Page} {indentation i j : String} {mode : Mode} {rest : List Pending}
  {column column' : Nat} {log : List LayoutEvent}

/-! ## Layouts without newlines are flat -/

/-- Segments that are laid out from one column to another are the given ones. -/
structure LaidAs (pieces : List Segment) (column : Nat) (log : List LayoutEvent)
    (column' : Nat) : Prop where
  segments : LayoutEvent.segments log = pieces
  column : column' = column + (Segment.joined pieces).length

/-- What is laid out in turn is laid out as the given segments in turn. -/
lemma LaidAs.append {xs ys : List Segment} {column₁ column₂ : Nat} {log₁ log₂ : List LayoutEvent}
    (hxs : LaidAs xs column log₁ column₁) (hys : LaidAs ys column₁ log₂ column₂) :
    LaidAs (xs ++ ys) column (log₁ ++ log₂) column₂ where
  segments := by rw [LayoutEvent.segments_append, hxs.segments, hys.segments]
  column := by
    rw [hys.column, hxs.column, Segment.joined_append, String.length_append, Nat.add_assoc]

/-- Straight documents one after the other, if each of them is laid out flat. -/
lemma layAll_of_isInline {ds : List Document}
    (h : ∀ d ∈ ds, ∀ {rest : List Pending} {column column' : Nat} {log : List LayoutEvent},
      d.lay page indentation mode rest column = ⟨log, .ok column'⟩ → IsInline log →
      LaidAs d.flatPieces column log column')
    (hlay : layAll page indentation mode ds rest column = ⟨log, .ok column'⟩)
    (hlog : IsInline log) : LaidAs (flatPiecesAll ds) column log column' := by
  induction ds generalizing column log with
  | nil =>
    obtain ⟨rfl, rfl⟩ := Traced.eq_of_ok hlay
    exact ⟨rfl, rfl⟩
  | cons d ds ih =>
    obtain ⟨first, column₁, second, hd, hds, rfl⟩ := Traced.bind_eq_ok.mp hlay
    obtain ⟨hfirst, hsecond⟩ := LayoutEvent.isInline_append.mp hlog
    exact (h d (by simp) hd hfirst).append (ih (fun e he => h e (by simp [he])) hds hsecond)

/-- A straight fill, if each of its parts is laid out flat. -/
lemma layFill_of_isInline {parts : List Document}
    (h : ∀ d ∈ parts, ∀ {mode : Mode} {rest : List Pending} {column column' : Nat}
      {log : List LayoutEvent}, d.lay page indentation mode rest column = ⟨log, .ok column'⟩ →
      IsInline log → LaidAs d.flatPieces column log column')
    (hodd : EndsWithContent (.fill parts))
    (hlay : layFill page indentation mode parts rest column = ⟨log, .ok column'⟩)
    (hlog : IsInline log) : LaidAs (flatPiecesAll parts) column log column' := by
  induction parts using List.twoStepInduction generalizing column log with
  | nil =>
    obtain ⟨rfl, rfl⟩ := Traced.eq_of_ok hlay
    exact ⟨rfl, rfl⟩
  | singleton content =>
    obtain ⟨last, -, hcontent⟩ := layFill_last_eq_ok.mp hlay
    rw [flatPiecesAll, flatPiecesAll, List.append_nil]
    exact h content (by simp) hcontent hlog
  | cons_cons content separator parts ih _ =>
    cases parts with
    | nil => simp [EndsWithContent] at hodd
    | cons next parts =>
      obtain ⟨modes, first, column₁, second, column₂, others, -, hcontent, hseparator, hothers,
        rfl⟩ := layFill_pair_eq_ok.mp hlay
      obtain ⟨hfirst, hlog⟩ := LayoutEvent.isInline_append.mp hlog
      obtain ⟨hsecond, hlog⟩ := LayoutEvent.isInline_append.mp hlog
      have hodd' : EndsWithContent (.fill (next :: parts)) := by
        simp only [EndsWithContent, List.length_cons, reduceCtorEq, false_or] at hodd ⊢
        omega
      exact (h content (by simp) hcontent hfirst).append
        ((h separator (by simp) hseparator hsecond).append
          (ih (fun e he => h e (by simp [he])) hodd' hothers hlog))

/-- A straight document that is laid out without a newline is laid out as its flat text, in
whatever mode and before whatever follows it. -/
theorem lay_of_isInline {d : Document} (hd : d.IsStraight)
    (hlay : d.lay page indentation mode rest column = ⟨log, .ok column'⟩) (hlog : IsInline log) :
    LaidAs d.flatPieces column log column' := by
  -- A newline that is emitted stands in the record, which holds none.
  have hnewline : ∀ {indentation : String} {log : List LayoutEvent} {column' : Nat},
      page.emitNewline indentation = ⟨log, .ok column'⟩ → ¬ IsInline log := by
    intro indentation log column' h
    obtain ⟨rfl, -⟩ := Traced.eq_of_ok h
    exact LayoutEvent.not_isInline_newline indentation
  induction d using inductionOn generalizing indentation mode rest column column' log with
  | empty =>
    obtain ⟨rfl, rfl⟩ := Traced.eq_of_ok hlay
    exact ⟨rfl, rfl⟩
  | text s =>
    obtain ⟨rfl, rfl⟩ := Traced.eq_of_ok hlay
    exact ⟨rfl, by simp [flatPieces, Segment.render]⟩
  | newline s =>
    cases mode with
    | flat =>
      obtain ⟨rfl, rfl⟩ := Traced.eq_of_ok hlay
      exact ⟨rfl, by simp [flatPieces, Segment.render]⟩
    | broken => exact absurd hlog (hnewline hlay)
  | hardline => exact absurd hlog (hnewline hlay)
  | ifBreak broken flat => exact hd.1.elim
  | stray => exact hd.elim
  | concat docs ih =>
    have hall := everywhereAll_iff.mp hd.2
    exact layAll_of_isInline (fun d hmem _ _ _ _ => ih d hmem (hall d hmem)) hlay hlog
  | fill parts ih =>
    have hall := everywhereAll_iff.mp hd.2
    exact layFill_of_isInline (fun d hmem _ _ _ _ _ => ih d hmem (hall d hmem)) hd.1 hlay hlog
  | indent d ih | align amount d ih => exact ih hd.2 hlay hlog
  | group d ih =>
    cases mode with
    | flat => exact ih hd.2 hlay hlog
    | broken =>
      rcases lay_group_eq_ok.mp hlay with ⟨-, hflat⟩ | ⟨-, behind, hbroken, rfl⟩
      · exact ih hd.2 hflat hlog
      · have hinside := ih hd.2 hbroken (LayoutEvent.isInline_broke.mp hlog)
        exact ⟨hinside.segments, hinside.column⟩

/-! ## Two pages -/

/-- Wherever a document is laid out on the one page without a newline, broken and before proper
documents, it is laid out without one on the other. -/
def StaysInline (P Q : Page) (i j : String) (d : Document) : Prop :=
  ∀ {rest : List Pending}, Pending.AllProper rest → ∀ {column column₁ column₂ : Nat}
    {log₁ log₂ : List LayoutEvent}, d.lay P i .broken rest column = ⟨log₁, .ok column₁⟩ →
    d.lay Q j .broken rest column = ⟨log₂, .ok column₂⟩ → IsInline log₁ → IsInline log₂

section

variable {column₁ column₂ : Nat} {log₁ log₂ : List LayoutEvent}

/-- Layouts without newlines that start at one column end at one. -/
lemma column_eq_of_isInline {d : Document} (hd : d.IsStraight) {mode₁ mode₂ : Mode}
    {rest₁ rest₂ : List Pending} (h₁ : d.lay P i mode₁ rest₁ column = ⟨log₁, .ok column₁⟩)
    (hlog₁ : IsInline log₁) (h₂ : d.lay Q j mode₂ rest₂ column = ⟨log₂, .ok column₂⟩)
    (hlog₂ : IsInline log₂) : column₂ = column₁ :=
  (lay_of_isInline hd h₂ hlog₂).column.trans (lay_of_isInline hd h₁ hlog₁).column.symm

/-- A document that is flat within the line is laid out without a newline. -/
lemma isInline_of_spend {d : Document} (hd : d.IsStraight) {r : Int}
    (hr : d.spend .flat (page.width - column) = .leaves r)
    (hlay : d.lay page indentation .flat rest column = ⟨log, .ok column'⟩) : IsInline log := by
  rw [lay_flat hd.hasOddFills hr] at hlay
  obtain ⟨rfl, -⟩ := Traced.eq_of_ok hlay
  exact LayoutEvent.isInline_flatPieces d

/-- A straight document that fits flat emits no newline. -/
lemma isInline_of_allFit {d : Document} (hd : d.IsStraight) {ahead : List Pending}
    (hfits : Pending.allFit (⟨.flat, d⟩ :: ahead) (page.width - column) = .ok true)
    (hlay : d.lay page indentation .flat rest column = ⟨log, .ok column'⟩) : IsInline log := by
  obtain ⟨r, hr, -⟩ := Pending.allFit_flat_cons.mp hfits
  exact isInline_of_spend hd hr hlay

/-- A content and a separator that are flat together with the next content are laid out without a
newline. -/
lemma isInline_of_pair {content separator next : Document} (hcontent : content.IsStraight)
    (hseparator : separator.IsStraight)
    (hfits : Pending.allFit [⟨.flat, .concat [content, separator, next]⟩] (page.width - column) =
      .ok true) {rest₁ rest₂ : List Pending}
    (h₁ : content.lay page indentation .flat rest₁ column = ⟨log₁, .ok column₁⟩)
    (h₂ : separator.lay page indentation .flat rest₂ column₁ = ⟨log₂, .ok column₂⟩) :
    IsInline log₁ ∧ IsInline log₂ := by
  obtain ⟨r, hr, -⟩ := Pending.allFit_flat_cons.mp hfits
  obtain ⟨-, hr⟩ := Measure.ofRoom_andThen_eq_leaves.mp hr
  obtain ⟨r₁, hr₁, hr⟩ := Measure.andThen_eq_leaves.mp hr
  obtain ⟨r₂, hr₂, -⟩ := Measure.andThen_eq_leaves.mp hr
  have hfirst := isInline_of_spend hcontent hr₁ h₁
  have hroom : r₁ = page.width - column₁ := by
    have hleaves := spend_flat_leaves hr₁
    have hcolumn : column₁ = column + content.flatText.length :=
      (lay_of_isInline hcontent h₁ hfirst).column
    omega
  exact ⟨hfirst, isInline_of_spend hseparator (hroom ▸ hr₂) h₂⟩

/-- A straight document in front of proper ones is proper too. -/
lemma allProper_cons {d : Document} (hd : d.IsStraight) (mode : Mode)
    (hrest : Pending.AllProper rest) : Pending.AllProper (⟨mode, d⟩ :: rest) :=
  List.forall_mem_cons.mpr ⟨hd.isProper, hrest⟩

/-- Documents in turn, if each of them stays on the line. -/
lemma layAll_isInline_of_wider {ds : List Document} (hds : EverywhereAll Straight ds)
    (h : ∀ d ∈ ds, StaysInline P Q i j d) (hrest : Pending.AllProper rest)
    (h₁ : layAll P i .broken ds rest column = ⟨log₁, .ok column₁⟩)
    (h₂ : layAll Q j .broken ds rest column = ⟨log₂, .ok column₂⟩) (hlog : IsInline log₁) :
    IsInline log₂ := by
  induction ds generalizing column log₁ log₂ with
  | nil =>
    obtain ⟨rfl, -⟩ := Traced.eq_of_ok h₂
    exact fun _ => nofun
  | cons d ds ih =>
    obtain ⟨first₁, middle₁, second₁, hd₁, hds₁, rfl⟩ := Traced.bind_eq_ok.mp h₁
    obtain ⟨first₂, middle₂, second₂, hd₂, hds₂, rfl⟩ := Traced.bind_eq_ok.mp h₂
    obtain ⟨hfirst₁, hsecond₁⟩ := LayoutEvent.isInline_append.mp hlog
    have hbehind : Pending.AllProper (⟨.broken, .concat ds⟩ :: rest) :=
      allProper_cons (d := .concat ds) ⟨trivial, hds.2⟩ .broken hrest
    have hfirst₂ := h d (by simp) hbehind hd₁ hd₂ hfirst₁
    obtain rfl := column_eq_of_isInline hds.1 hd₁ hfirst₁ hd₂ hfirst₂
    exact LayoutEvent.isInline_append.mpr
      ⟨hfirst₂, ih hds.2 (fun e he => h e (by simp [he])) hds₁ hds₂ hsecond₁⟩

/-- A fill, if each of its parts stays on the line. -/
lemma layFill_isInline_of_wider (hwidth : P.width ≤ Q.width) {parts : List Document}
    (hparts : IsStraight (.fill parts)) (h : ∀ d ∈ parts, StaysInline P Q i j d)
    (hrest : Pending.AllProper rest)
    (h₁ : layFill P i .broken parts rest column = ⟨log₁, .ok column₁⟩)
    (h₂ : layFill Q j .broken parts rest column = ⟨log₂, .ok column₂⟩) (hlog : IsInline log₁) :
    IsInline log₂ := by
  induction parts using List.twoStepInduction generalizing column log₁ log₂ with
  | nil =>
    obtain ⟨rfl, -⟩ := Traced.eq_of_ok h₂
    exact fun _ => nofun
  | singleton content =>
    obtain ⟨-, hcontent, -⟩ := hparts
    obtain ⟨last₁, hlast₁, hcontent₁⟩ := layFill_last_eq_ok.mp h₁
    obtain ⟨last₂, hlast₂, hcontent₂⟩ := layFill_last_eq_ok.mp h₂
    rcases Page.lastMode_of_wider hwidth (IsStraight.isProper hcontent) hlast₁ hlast₂ with
      ⟨rfl, hfits⟩ | ⟨rfl, rfl⟩
    · exact isInline_of_allFit hcontent hfits hcontent₂
    · exact h content (by simp) hrest hcontent₁ hcontent₂ hlog
  | cons_cons content separator parts ih _ =>
    cases parts with
    | nil => simp [Straight, EndsWithContent, Everywhere] at hparts
    | cons next parts =>
      obtain ⟨hodd, hcontent, hseparator, hothers⟩ := hparts
      have hfill : IsStraight (.fill (next :: parts)) := by
        refine ⟨.inr ?_, hothers⟩
        simp only [Straight, EndsWithContent, List.length_cons, reduceCtorEq, false_or] at hodd ⊢
        omega
      obtain ⟨modes₁, first₁, c₁, second₁, c₁', others₁, hmodes₁, hcontent₁, hseparator₁, hothers₁,
        rfl⟩ := layFill_pair_eq_ok.mp h₁
      obtain ⟨modes₂, first₂, c₂, second₂, c₂', others₂, hmodes₂, hcontent₂, hseparator₂, hothers₂,
        rfl⟩ := layFill_pair_eq_ok.mp h₂
      obtain ⟨hfirst₁, hlog⟩ := LayoutEvent.isInline_append.mp hlog
      obtain ⟨hsecond₁, hlog⟩ := LayoutEvent.isInline_append.mp hlog
      have hbehind := allProper_cons hfill .broken hrest
      -- The pair fits on the wider page, or its content does, or all is decided as before.
      have hpair : IsInline first₂ ∧ IsInline second₂ := by
        rcases Page.pairModes_of_wider hwidth (IsStraight.isProper hcontent)
          (IsStraight.isProper hseparator) (IsStraight.isProper hothers.1) hmodes₁ hmodes₂ with
          ⟨rfl, hfits⟩ | ⟨hbroken, rfl, hfits⟩ | ⟨rfl, rfl⟩
        · exact isInline_of_pair hcontent hseparator hfits hcontent₂ hseparator₂
        · have hfirst₂ := isInline_of_allFit hcontent hfits hcontent₂
          obtain rfl := column_eq_of_isInline hcontent hcontent₁ hfirst₁ hcontent₂ hfirst₂
          rw [hbroken] at hseparator₁
          exact ⟨hfirst₂, h separator (by simp) hbehind hseparator₁ hseparator₂ hsecond₁⟩
        · have hfirst₂ := h content (by simp) (allProper_cons hseparator .broken hbehind) hcontent₁
            hcontent₂ hfirst₁
          obtain rfl := column_eq_of_isInline hcontent hcontent₁ hfirst₁ hcontent₂ hfirst₂
          exact ⟨hfirst₂, h separator (by simp) hbehind hseparator₁ hseparator₂ hsecond₁⟩
      obtain ⟨hfirst₂, hsecond₂⟩ := hpair
      obtain rfl := column_eq_of_isInline hcontent hcontent₁ hfirst₁ hcontent₂ hfirst₂
      obtain rfl := column_eq_of_isInline hseparator hseparator₁ hsecond₁ hseparator₂ hsecond₂
      -- Both layouts are at one column again, where the other parts start.
      have hothers₂ := ih hfill (fun e he => h e (by simp [he])) hothers₁ hothers₂ hlog
      simp only [LayoutEvent.isInline_append]
      exact ⟨hfirst₂, hsecond₂, hothers₂⟩

/-- A straight document that is laid out without a newline is laid out without one on a wider
page. -/
theorem staysInline_of_wider (hwidth : P.width ≤ Q.width) {d : Document} (hd : d.IsStraight) :
    StaysInline P Q i j d := by
  induction d using inductionOn generalizing i j with
  | empty | text s =>
    intro rest _ column column₁ column₂ log₁ log₂ h₁ h₂ hlog
    rwa [← (Traced.eq_of_ok (h₁.symm.trans h₂)).1]
  | newline flat | hardline =>
    intro rest _ column column₁ column₂ log₁ log₂ h₁ _ hlog
    obtain ⟨rfl, -⟩ := Traced.eq_of_ok h₁
    exact absurd hlog (LayoutEvent.not_isInline_newline i)
  | ifBreak broken flat => exact hd.1.elim
  | stray => exact hd.elim
  | concat docs ih =>
    have hall := everywhereAll_iff.mp hd.2
    intro rest hrest column column₁ column₂ log₁ log₂ h₁ h₂ hlog
    exact layAll_isInline_of_wider hd.2 (fun d hmem => ih d hmem (hall d hmem)) hrest h₁ h₂ hlog
  | fill parts ih =>
    have hall := everywhereAll_iff.mp hd.2
    intro rest hrest column column₁ column₂ log₁ log₂ h₁ h₂ hlog
    exact layFill_isInline_of_wider hwidth hd (fun d hmem => ih d hmem (hall d hmem)) hrest h₁ h₂
      hlog
  | indent d ih | align amount d ih => exact ih hd.2
  | group d ih =>
    intro rest hrest column column₁ column₂ log₁ log₂ h₁ h₂ hlog
    rcases lay_group_eq_ok.mp h₂ with ⟨hfits, hflat⟩ | ⟨hfails, behind₂, hbroken₂, rfl⟩
    · exact isInline_of_allFit hd.2 hfits hflat
    · -- What does not fit on the wider page does not fit on the narrower one either.
      rcases lay_group_eq_ok.mp h₁ with ⟨hfits, -⟩ | ⟨-, behind₁, hbroken₁, rfl⟩
      · rw [Page.allFit_of_wider hwidth (allProper_cons hd.2 .flat hrest) hfits] at hfails
        cases hfails
      · exact LayoutEvent.isInline_broke.mpr
          (ih hd.2 hrest hbroken₁ hbroken₂ (LayoutEvent.isInline_broke.mp hlog))

end

/-! ## Whole documents -/

/-- A straight document whose layout has no newline is laid out alike on each wider page. -/
theorem segments_of_wider (hwidth : P.width ≤ Q.width) {d : Document} (hd : d.IsStraight)
    {ss : List Segment} (hss : d.segments P = .ok ss) (hinline : ∀ s ∈ ss, s.isNewline = false) :
    d.segments Q = .ok ss := by
  obtain ⟨log₁, column₁, h₁⟩ := exists_layOut P hd.isProper
  obtain ⟨log₂, column₂, h₂⟩ := exists_layOut Q hd.isProper
  obtain rfl : Segment.settle (LayoutEvent.segments log₁) = ss := by
    simpa [segments, Laying.segments, h₁, Except.map] using hss
  have hlog₁ : IsInline log₁ := Segment.inline_of_settle hinline
  have hlog₂ := staysInline_of_wider hwidth hd (by simp [Pending.AllProper]) h₁ h₂ hlog₁
  have hsegments : LayoutEvent.segments log₂ = LayoutEvent.segments log₁ :=
    (lay_of_isInline hd h₂ hlog₂).segments.trans (lay_of_isInline hd h₁ hlog₁).segments.symm
  simp [segments, Laying.segments, h₂, Except.map, hsegments]

end Document

end GlimmerFormat
