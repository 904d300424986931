import GlimmerFormat.Proofs.Layout.Measuring
import Mathlib.Data.List.Induction

/-!
# Decisions of a layout

A layout decides for each group, and for each content and separator of a fill, whether it is
flat.  This file says what each decision goes by, and that none of them fails among proper
documents, so that a proper document always has a layout.

* `Page.groupMode_eq_ok`: a group is flat exactly if it fits before what follows it.
* `Document.lay_group_eq_ok`, `Document.layFill_pair_eq_ok` and so on: what groups and fills are
  laid out as, decision by decision.
* `Page.lastMode_eq_ok`, `Page.pairModes_eq_ok`: a content is flat if it fits by itself, and a
  separator if it fits together with the contents on both sides.
* `Document.exists_layOut`: a proper document is laid out on any page without a fault.
-/

namespace GlimmerFormat

namespace Page

variable {page : Page} {column : Nat}

/-! ## What decisions go by -/

/-- A group is flat exactly if it fits before what follows it; otherwise it breaks and this is
noted. -/
theorem groupMode_eq_ok {d : Document} {rest : List Pending} {log : List LayoutEvent}
    {mode : Mode} :
    page.groupMode d rest column = ⟨log, .ok mode⟩ ↔
      (Pending.allFit (⟨.flat, d⟩ :: rest) (page.width - column) = .ok true ∧
        log = [] ∧ mode = .flat) ∨
      (Pending.allFit (⟨.flat, d⟩ :: rest) (page.width - column) = .ok false ∧
        log = [.broke column] ∧ mode = .broken) := by
  cases h : Pending.allFit (⟨.flat, d⟩ :: rest) (page.width - column) with
  | error e => simp [groupMode, fitsFlat, h, Traced.ofExcept]
  | ok b =>
    cases b with
    | true => simp [groupMode, fitsFlat, h, Traced.ofExcept, pure, eq_comm]
    | false => simp [groupMode, fitsFlat, h, Traced.ofExcept, Traced.note, pure, eq_comm]

/-- The mode of a group goes by nothing but the measure of what follows it. -/
lemma groupMode_congr {d : Document} {xs ys : List Pending} (h : Pending.Alike xs ys) :
    page.groupMode d xs column = page.groupMode d ys column := by
  rw [groupMode, groupMode, fitsFlat, fitsFlat, Pending.allFit_cons_congr h]

/-- A content with no other behind it is flat exactly if it fits by itself. -/
theorem lastMode_eq_ok {content : Document} {log : List LayoutEvent} {mode : Mode} :
    page.lastMode content column = ⟨log, .ok mode⟩ ↔
      log = [] ∧
        ((Pending.allFit [⟨.flat, content⟩] (page.width - column) = .ok true ∧ mode = .flat) ∨
          (Pending.allFit [⟨.flat, content⟩] (page.width - column) = .ok false ∧
            mode = .broken)) := by
  cases h : Pending.allFit [⟨.flat, content⟩] (page.width - column) with
  | error e => simp [lastMode, fitsFlat, h, Traced.ofExcept]
  | ok b => cases b <;> simp [lastMode, fitsFlat, h, Traced.ofExcept, pure, eq_comm]

/-- A separator is flat exactly if it fits together with the contents on both sides; then the
content before it is flat too, and otherwise that content is flat exactly if it fits by itself. -/
theorem pairModes_eq_ok {content separator next : Document} {log : List LayoutEvent}
    {modes : Mode × Mode} :
    page.pairModes content separator next column = ⟨log, .ok modes⟩ ↔
      log = [] ∧ ∃ contentFits pairFits,
        Pending.allFit [⟨.flat, content⟩] (page.width - column) = .ok contentFits ∧
        Pending.allFit [⟨.flat, .concat [content, separator, next]⟩] (page.width - column) =
          .ok pairFits ∧
        modes = if pairFits then (.flat, .flat)
          else if contentFits then (.flat, .broken) else (.broken, .broken) := by
  cases h : Pending.allFit [⟨.flat, content⟩] (page.width - column) with
  | error e => simp [pairModes, fitsFlat, h, Traced.ofExcept]
  | ok contentFits =>
    cases h' : Pending.allFit [⟨.flat, .concat [content, separator, next]⟩]
        (page.width - column) with
    | error e => simp [pairModes, fitsFlat, h, h', Traced.ofExcept]
    | ok pairFits =>
      cases pairFits <;> cases contentFits <;>
        simp [pairModes, fitsFlat, h, h', Traced.ofExcept, pure, eq_comm]

/-! ## Decisions among proper documents -/

/-- The mode of a proper group before proper documents can be decided. -/
lemma exists_groupMode (page : Page) {d : Document} (hd : d.IsProper) {rest : List Pending}
    (hrest : Pending.AllProper rest) (column : Nat) :
    ∃ log mode, page.groupMode d rest column = ⟨log, .ok mode⟩ := by
  have hall : Pending.AllProper (⟨.flat, d⟩ :: rest) := by
    simpa [Pending.AllProper] using ⟨hd, hrest⟩
  obtain ⟨b, hb⟩ := Pending.allFit_of_allProper hall (page.width - column)
  cases b with
  | true => exact ⟨_, _, groupMode_eq_ok.mpr (.inl ⟨hb, rfl, rfl⟩)⟩
  | false => exact ⟨_, _, groupMode_eq_ok.mpr (.inr ⟨hb, rfl, rfl⟩)⟩

/-- Whether a proper document fits by itself can be decided. -/
lemma exists_allFit_singleton (page : Page) {d : Document} (hd : d.IsProper) (column : Nat) :
    ∃ b, Pending.allFit [⟨.flat, d⟩] (page.width - column) = .ok b :=
  Pending.allFit_of_allProper (by simpa [Pending.AllProper] using hd) _

/-- The mode of a proper last content can be decided, and leaves no record. -/
lemma exists_lastMode (page : Page) {content : Document} (hcontent : content.IsProper)
    (column : Nat) : ∃ mode, page.lastMode content column = ⟨[], .ok mode⟩ := by
  obtain ⟨b, hb⟩ := page.exists_allFit_singleton hcontent column
  cases b with
  | true => exact ⟨_, lastMode_eq_ok.mpr ⟨rfl, .inl ⟨hb, rfl⟩⟩⟩
  | false => exact ⟨_, lastMode_eq_ok.mpr ⟨rfl, .inr ⟨hb, rfl⟩⟩⟩

/-- The modes of a proper content and its separator can be decided, and leave no record. -/
lemma exists_pairModes (page : Page) {content separator next : Document}
    (hcontent : content.IsProper) (hseparator : separator.IsProper) (hnext : next.IsProper)
    (column : Nat) :
    ∃ modes, page.pairModes content separator next column = ⟨[], .ok modes⟩ := by
  have hconcat : (Document.concat [content, separator, next]).IsProper :=
    ⟨trivial, hcontent, hseparator, hnext, trivial⟩
  obtain ⟨b, hb⟩ := page.exists_allFit_singleton hcontent column
  obtain ⟨b', hb'⟩ := page.exists_allFit_singleton hconcat column
  exact ⟨_, pairModes_eq_ok.mpr ⟨rfl, b, b', hb, hb', rfl⟩⟩

end Page

namespace Document

variable {page : Page} {indentation : String}

/-! ## What groups and fills are laid out as -/

variable {mode : Mode} {rest : List Pending} {column column' : Nat} {log : List LayoutEvent}

/-- A group in a broken context is laid out flat if it fits before what follows it, and else
broken. -/
theorem lay_group_eq_ok {d : Document} :
    (Document.group d).lay page indentation .broken rest column = ⟨log, .ok column'⟩ ↔
      (Pending.allFit (⟨.flat, d⟩ :: rest) (page.width - column) = .ok true ∧
        d.lay page indentation .flat rest column = ⟨log, .ok column'⟩) ∨
      (Pending.allFit (⟨.flat, d⟩ :: rest) (page.width - column) = .ok false ∧
        ∃ behind, d.lay page indentation .broken rest column = ⟨behind, .ok column'⟩ ∧
          log = .broke column :: behind) := by
  constructor
  · intro h
    obtain ⟨first, mode, second, hmode, hd, rfl⟩ := Traced.bind_eq_ok.mp h
    rcases Page.groupMode_eq_ok.mp hmode with ⟨hfit, rfl, rfl⟩ | ⟨hfit, rfl, rfl⟩
    · exact .inl ⟨hfit, hd⟩
    · exact .inr ⟨hfit, second, hd, rfl⟩
  · rintro (⟨hfit, hd⟩ | ⟨hfit, behind, hd, rfl⟩)
    · have hmode := Page.groupMode_eq_ok.mpr (.inl ⟨hfit, rfl, rfl⟩)
      exact Traced.bind_eq_ok.mpr ⟨_, _, _, hmode, hd, rfl⟩
    · have hmode := Page.groupMode_eq_ok.mpr (.inr ⟨hfit, rfl, rfl⟩)
      exact Traced.bind_eq_ok.mpr ⟨_, _, _, hmode, hd, rfl⟩

/-- The last content of a fill is laid out in the mode that is decided for it. -/
theorem layFill_last_eq_ok {content : Document} :
    layFill page indentation mode [content] rest column = ⟨log, .ok column'⟩ ↔
      ∃ last, page.lastMode content column = ⟨[], .ok last⟩ ∧
        content.lay page indentation last rest column = ⟨log, .ok column'⟩ := by
  constructor
  · intro h
    obtain ⟨first, last, second, hlast, hcontent, rfl⟩ := Traced.bind_eq_ok.mp h
    obtain ⟨rfl, -⟩ := Page.lastMode_eq_ok.mp hlast
    exact ⟨last, hlast, hcontent⟩
  · rintro ⟨last, hlast, hcontent⟩
    exact Traced.bind_eq_ok.mpr ⟨_, _, _, hlast, hcontent, rfl⟩

/-- A content and a separator at the end of a fill are laid out in one mode. -/
theorem layFill_two_eq_ok {content separator : Document} :
    layFill page indentation mode [content, separator] rest column = ⟨log, .ok column'⟩ ↔
      ∃ last first column₁ second, page.lastMode content column = ⟨[], .ok last⟩ ∧
        content.lay page indentation last (⟨last, separator⟩ :: rest) column =
          ⟨first, .ok column₁⟩ ∧
        separator.lay page indentation last rest column₁ = ⟨second, .ok column'⟩ ∧
        log = first ++ second := by
  constructor
  · intro h
    obtain ⟨nothing, last, others, hlast, hothers, rfl⟩ := Traced.bind_eq_ok.mp h
    obtain ⟨first, column₁, second, hcontent, hseparator, rfl⟩ := Traced.bind_eq_ok.mp hothers
    obtain ⟨rfl, -⟩ := Page.lastMode_eq_ok.mp hlast
    exact ⟨last, first, column₁, second, hlast, hcontent, hseparator, rfl⟩
  · rintro ⟨last, first, column₁, second, hlast, hcontent, hseparator, rfl⟩
    have hothers := Traced.bind_eq_ok.mpr ⟨_, _, _, hcontent, hseparator, rfl⟩
    exact Traced.bind_eq_ok.mpr ⟨_, _, _, hlast, hothers, rfl⟩

/-- A content and the separator behind it are laid out in the modes that are decided for the
pair, before the others. -/
theorem layFill_pair_eq_ok {content separator next : Document} {parts : List Document} :
    layFill page indentation mode (content :: separator :: next :: parts) rest column =
        ⟨log, .ok column'⟩ ↔
      ∃ modes first column₁ second column₂ others,
        page.pairModes content separator next column = ⟨[], .ok modes⟩ ∧
        content.lay page indentation modes.1
          (⟨modes.2, separator⟩ :: ⟨mode, .fill (next :: parts)⟩ :: rest) column =
          ⟨first, .ok column₁⟩ ∧
        separator.lay page indentation modes.2 (⟨mode, .fill (next :: parts)⟩ :: rest) column₁ =
          ⟨second, .ok column₂⟩ ∧
        layFill page indentation mode (next :: parts) rest column₂ = ⟨others, .ok column'⟩ ∧
        log = first ++ (second ++ others) := by
  rw [layFill_pair]
  constructor
  · intro h
    obtain ⟨nothing, modes, all, hmodes, hall, rfl⟩ := Traced.bind_eq_ok.mp h
    obtain ⟨first, column₁, behind, hcontent, hbehind, rfl⟩ := Traced.bind_eq_ok.mp hall
    obtain ⟨second, column₂, others, hseparator, hothers, rfl⟩ := Traced.bind_eq_ok.mp hbehind
    obtain ⟨rfl, -⟩ := Page.pairModes_eq_ok.mp hmodes
    exact ⟨modes, first, column₁, second, column₂, others, hmodes, hcontent, hseparator, hothers,
      rfl⟩
  · rintro ⟨modes, first, column₁, second, column₂, others, hmodes, hcontent, hseparator, hothers,
      rfl⟩
    rw [hmodes, Traced.ok_bind_of_nil, hcontent, Traced.ok_bind, hseparator, Traced.ok_bind,
      hothers]

/-! ## Layouts without faults -/

/-- Proper documents are laid out one after the other without a fault if each of them is. -/
lemma exists_layAll {mode : Mode} {ds : List Document} (hproper : EverywhereAll NotStray ds)
    (h : ∀ d ∈ ds, ∀ {rest : List Pending}, Pending.AllProper rest → ∀ column,
      ∃ log column', d.lay page indentation mode rest column = ⟨log, .ok column'⟩)
    {rest : List Pending} (hrest : Pending.AllProper rest) (column : Nat) :
    ∃ log column', layAll page indentation mode ds rest column = ⟨log, .ok column'⟩ := by
  induction ds generalizing column with
  | nil => exact ⟨[], column, rfl⟩
  | cons d ds ih =>
    have hbehind : Pending.AllProper (⟨mode, .concat ds⟩ :: rest) := by
      simpa [Pending.AllProper] using ⟨⟨trivial, hproper.2⟩, hrest⟩
    obtain ⟨log, column₁, hd⟩ := h d (by simp) hbehind column
    obtain ⟨log', column₂, hds⟩ := ih hproper.2 (fun e he => h e (by simp [he])) column₁
    refine ⟨log ++ log', column₂, ?_⟩
    rw [layAll, hd, Traced.ok_bind, hds]

/-- A fill of proper documents is laid out without a fault if each of them is in each mode. -/
lemma exists_layFill {mode : Mode} {parts : List Document}
    (hproper : EverywhereAll NotStray parts)
    (h : ∀ d ∈ parts, ∀ mode, ∀ {rest : List Pending}, Pending.AllProper rest → ∀ column,
      ∃ log column', d.lay page indentation mode rest column = ⟨log, .ok column'⟩)
    {rest : List Pending} (hrest : Pending.AllProper rest) (column : Nat) :
    ∃ log column', layFill page indentation mode parts rest column = ⟨log, .ok column'⟩ := by
  induction parts using List.twoStepInduction generalizing column with
  | nil => exact ⟨[], column, rfl⟩
  | singleton content =>
    obtain ⟨last, hlast⟩ := page.exists_lastMode hproper.1 column
    obtain ⟨log, column', hcontent⟩ := h content (by simp) last hrest column
    exact ⟨log, column', layFill_last_eq_ok.mpr ⟨last, hlast, hcontent⟩⟩
  | cons_cons content separator parts ih _ =>
    cases parts with
    | nil =>
      obtain ⟨last, hlast⟩ := page.exists_lastMode hproper.1 column
      have hbehind : Pending.AllProper (⟨last, separator⟩ :: rest) := by
        simpa [Pending.AllProper] using ⟨hproper.2.1, hrest⟩
      obtain ⟨log₁, column₁, h₁⟩ := h content (by simp) last hbehind column
      obtain ⟨log₂, column₂, h₂⟩ := h separator (by simp) last hrest column₁
      refine ⟨log₁ ++ log₂, column₂, ?_⟩
      exact layFill_two_eq_ok.mpr ⟨last, log₁, column₁, log₂, hlast, h₁, h₂, rfl⟩
    | cons next parts =>
      obtain ⟨modes, hmodes⟩ :=
        page.exists_pairModes hproper.1 hproper.2.1 hproper.2.2.1 column
      have hfill : Pending.AllProper (⟨mode, .fill (next :: parts)⟩ :: rest) := by
        simpa [Pending.AllProper] using ⟨⟨trivial, hproper.2.2⟩, hrest⟩
      have hbehind : Pending.AllProper
          (⟨modes.2, separator⟩ :: ⟨mode, .fill (next :: parts)⟩ :: rest) := by
        simpa [Pending.AllProper] using ⟨hproper.2.1, ⟨trivial, hproper.2.2⟩, hrest⟩
      obtain ⟨log₁, column₁, h₁⟩ := h content (by simp) modes.1 hbehind column
      obtain ⟨log₂, column₂, h₂⟩ := h separator (by simp) modes.2 hfill column₁
      obtain ⟨log₃, column₃, h₃⟩ := ih hproper.2.2 (fun e he => h e (by simp [he])) column₂
      refine ⟨log₁ ++ (log₂ ++ log₃), column₃, ?_⟩
      exact layFill_pair_eq_ok.mpr
        ⟨modes, log₁, column₁, log₂, column₂, log₃, hmodes, h₁, h₂, h₃, rfl⟩

/-- A proper document before proper ones is laid out without a fault. -/
theorem exists_lay {d : Document} (hd : d.IsProper) (mode : Mode) {rest : List Pending}
    (hrest : Pending.AllProper rest) (column : Nat) :
    ∃ log column', d.lay page indentation mode rest column = ⟨log, .ok column'⟩ := by
  induction d using inductionOn generalizing indentation mode rest column with
  | empty => exact ⟨[], column, rfl⟩
  | text s => exact ⟨_, _, rfl⟩
  | newline flat => cases mode <;> exact ⟨_, _, rfl⟩
  | hardline => exact ⟨_, _, rfl⟩
  | stray => exact hd.elim
  | concat docs ih =>
    have hall := everywhereAll_iff.mp hd.2
    exact exists_layAll hd.2 (fun d hmem _ => ih d hmem (hall d hmem) mode) hrest column
  | fill parts ih =>
    have hall := everywhereAll_iff.mp hd.2
    exact exists_layFill hd.2 (fun d hmem m _ => ih d hmem (hall d hmem) m) hrest column
  | indent d ih => exact ih hd.2 mode hrest column
  | align amount d ih => exact ih hd.2 mode hrest column
  | group d ih =>
    cases mode with
    | flat => exact ih hd.2 .flat hrest column
    | broken =>
      obtain ⟨log, mode, hmode⟩ := page.exists_groupMode hd.2 hrest column
      obtain ⟨log', column', hlay⟩ := @ih indentation hd.2 mode rest hrest column
      refine ⟨log ++ log', column', ?_⟩
      rw [lay, hmode, Traced.ok_bind, hlay]
  | ifBreak broken flat ihb ihf =>
    cases mode with
    | flat => exact ihf hd.2.2 .flat hrest column
    | broken => exact ihb hd.2.1 .broken hrest column

/-- A proper document is laid out on any page without a fault. -/
theorem exists_layOut (page : Page) {d : Document} (hd : d.IsProper) :
    ∃ log column, d.layOut page = ⟨log, .ok column⟩ :=
  exists_lay hd .broken (by simp [Pending.AllProper]) 0

/-- A document has a layout exactly if it is laid out without a fault. -/
lemma layout_eq_ok {d : Document} {text : String} :
    d.layout page = .ok text ↔
      ∃ log column, d.layOut page = ⟨log, .ok column⟩ ∧
        text = Segment.joined (Segment.settle (LayoutEvent.segments log)) := by
  rw [layout, Laying.text, Laying.segments]
  cases d.layOut page with
  | mk log outcome => cases outcome <;> simp [Except.map, eq_comm]

end Document

end GlimmerFormat
