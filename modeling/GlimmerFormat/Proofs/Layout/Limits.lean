import GlimmerFormat.Proofs.Layout.Widened
import GlimmerFormat.Proofs.Traced

/-!
# Limits of a layout

Measuring an indentation takes the tab width as a machine integer, whether or not there is a tab to
measure.  On a page with a tab width that none can hold, a layout therefore stops at its first
newline.  With any other tab width, and where no newline is emitted, the limit plays no part.

* `Page.checked_emitNewline`: a newline stops a layout exactly where it cannot be measured.
* `Document.layOutChecked_of_holds`, `Document.layOutChecked_of_isInline`: layouts within the limit.
* `Document.layOutChecked_of_newline`: layouts that run into it.
* `Document.layoutChecked_of_segments`: which of the two it is can be told from the segments.
-/

namespace GlimmerFormat

open LayoutEvent (IsInline)

/-! ## Segments -/

namespace Segment

/-- Segments without newlines are not trimmed. -/
lemma settle_of_inline {ss : List Segment} (h : ∀ s ∈ ss, s.isNewline = false) :
    settle ss = ss := by
  have hpush : ∀ before : List Segment, ss.foldl push before = ss.reverse ++ before := by
    induction ss with
    | nil => simp
    | cons s ss ih =>
      intro before
      obtain ⟨hs, hss⟩ := List.forall_mem_cons.mp h
      rw [List.foldl_cons, ih hss, push, if_neg (by simp [hs])]
      simp
  rw [settle, hpush, List.append_nil, List.reverse_reverse]

/-- Trimming lines leaves their newlines. -/
lemma any_isNewline_settle_eq_false_iff {ss : List Segment} :
    (settle ss).any isNewline = false ↔ ∀ s ∈ ss, s.isNewline = false := by
  constructor
  · intro h
    exact inline_of_settle (by simpa using h)
  · intro h
    rw [settle_of_inline h]
    simpa using h

end Segment

namespace Page

variable {page : Page}

/-- A newline is measured as it is emitted. -/
theorem checked_emitNewline (page : Page) (indentation : String) :
    (page.emitNewline indentation).checked page.check =
      ⟨[.emitted (.newline indentation)], Text.columns? page.tabWidth indentation⟩ := by
  by_cases h : MachineInt.int32.Holds page.tabWidth
  · simp [Traced.checked, emitNewline, check, Text.columns?, if_pos h, Except.map]
  · simp [Traced.checked, emitNewline, check, Text.columns?, if_neg h, Except.map]

/-- An event cannot happen if it is a newline and the tab width cannot be measured with. -/
lemma check_eq_error {event : LayoutEvent} {e : Fault} (h : page.check event = .error e) :
    ¬ MachineInt.int32.Holds page.tabWidth ∧ e = .overflow .int32 := by
  unfold check at h
  split at h
  · unfold Text.columns? at h
    split at h
    · cases h
    · next htab => exact ⟨htab, (Except.error.inj h).symm⟩
  · cases h

/-- With a tab width that can be measured with, every event can happen. -/
lemma check_of_holds (h : MachineInt.int32.Holds page.tabWidth) (event : LayoutEvent) :
    page.check event = .ok () := by
  cases hevent : page.check event with
  | ok u => rfl
  | error e => exact absurd h (check_eq_error hevent).1

/-- Without a newline, every event can happen. -/
lemma check_of_isInline {log : List LayoutEvent} (h : IsInline log) :
    ∀ event ∈ log, page.check event = .ok () := by
  intro event hevent
  unfold check
  split
  · next indentation =>
    have hmem : Segment.newline indentation ∈ LayoutEvent.segments log :=
      List.mem_filterMap.mpr ⟨_, hevent, rfl⟩
    exact nomatch h _ hmem
  · rfl

end Page

namespace Document

variable {page : Page}

/-- With a tab width that can be measured with, a layout is what it is without the limit. -/
theorem layOutChecked_of_holds (h : MachineInt.int32.Holds page.tabWidth) (d : Document) :
    d.layOutChecked page = d.layOut page :=
  Traced.checked_of_forall_passes fun event _ => Page.check_of_holds h event

/-- A layout without a newline is what it is without the limit. -/
theorem layOutChecked_of_isInline {d : Document} (h : IsInline (d.layOut page).log) :
    d.layOutChecked page = d.layOut page :=
  Traced.checked_of_forall_passes (Page.check_of_isInline h)

/-- With a tab width that cannot be measured with, a layout stops at its first newline. -/
theorem layOutChecked_of_newline (htab : ¬ MachineInt.int32.Holds page.tabWidth) {d : Document}
    (h : ¬ IsInline (d.layOut page).log) :
    (d.layOutChecked page).outcome = .error (.overflow .int32) := by
  rcases Traced.checked_cases page.check (d.layOut page) with ⟨hall, -⟩ | hstops
  · -- If every event could happen, none of them would be a newline.
    refine absurd (fun segment hsegment => ?_) h
    obtain ⟨event, hevent, hsome⟩ := List.mem_filterMap.mp hsegment
    cases segment with
    | text | flatBreak => rfl
    | newline indentation =>
      obtain rfl : event = .emitted (.newline indentation) := by
        cases event <;> simp_all [LayoutEvent.segment?]
      have hpasses := hall _ hevent
      simp [Page.check, Text.columns?, htab, Except.map] at hpasses
  · obtain ⟨before, event, behind, e, -, -, hevent, hchecked⟩ := hstops
    rw [layOutChecked, hchecked, (Page.check_eq_error hevent).2]

/-- A layout is what it is without the limit, or it runs into the limit. -/
lemma layoutChecked_cases (page : Page) (d : Document) :
    d.layoutChecked page = d.layout page ∨
      ¬ MachineInt.int32.Holds page.tabWidth ∧
        d.layoutChecked page = .error (.overflow .int32) := by
  by_cases htab : MachineInt.int32.Holds page.tabWidth
  · rw [layoutChecked, layOutChecked_of_holds htab]
    exact .inl rfl
  by_cases hinline : IsInline (d.layOut page).log
  · rw [layoutChecked, layOutChecked_of_isInline hinline]
    exact .inl rfl
  · refine .inr ⟨htab, ?_⟩
    rw [layoutChecked, Laying.text, Laying.segments, layOutChecked_of_newline htab hinline]
    rfl

/-- A proper document is laid out as some segments. -/
lemma exists_segments (page : Page) {d : Document} (hd : d.IsProper) :
    ∃ segments, d.segments page = .ok segments := by
  obtain ⟨log, column, hlay⟩ := exists_layOut page hd
  refine ⟨Segment.settle (LayoutEvent.segments log), ?_⟩
  rw [segments, Laying.segments, hlay]
  rfl

/-- The text of a layout is that of its segments. -/
lemma layout_of_segments {d : Document} {ss : List Segment} (h : d.segments page = .ok ss) :
    d.layout page = .ok (Segment.joined ss) := by
  rw [segments] at h
  rw [layout, Laying.text, h]
  rfl

/-- A layout that emits a newline runs into the limit, if there is one. -/
theorem layoutChecked_of_segments {d : Document} {ss : List Segment}
    (h : d.segments page = .ok ss) :
    d.layoutChecked page =
      if ss.any Segment.isNewline ∧ ¬ MachineInt.int32.Holds page.tabWidth then
        .error (.overflow .int32)
      else .ok (Segment.joined ss) := by
  have hinline : IsInline (d.layOut page).log ↔ ss.any Segment.isNewline = false := by
    cases hlaid : (d.layOut page).outcome with
    | error e => simp [segments, Laying.segments, hlaid, Except.map] at h
    | ok column =>
      obtain rfl : Segment.settle (LayoutEvent.segments (d.layOut page).log) = ss := by
        simpa [segments, Laying.segments, hlaid, Except.map] using h
      exact Segment.any_isNewline_settle_eq_false_iff.symm
  split
  · next hlimit =>
    have hnewline : ¬ IsInline (d.layOut page).log := by simp [hinline, hlimit.1]
    rw [layoutChecked, Laying.text, Laying.segments, layOutChecked_of_newline hlimit.2 hnewline]
    rfl
  · next hlimit =>
    rw [← layout_of_segments h]
    by_cases htab : MachineInt.int32.Holds page.tabWidth
    · rw [layoutChecked, layOutChecked_of_holds htab]
      rfl
    · rw [layoutChecked, layOutChecked_of_isInline (hinline.mpr (by simpa [htab] using hlimit))]
      rfl

end Document

end GlimmerFormat
