import GlimmerFormat.Proofs.Format.Outcomes
import GlimmerFormat.Proofs.Layout.Widened
import GlimmerFormat.Proofs.Printing.Kept

/-!
# Templates on one line

A template that is formatted on one line stays as it is on every wider page.  In general more room
may well lead to more lines, since a layout is greedy; on a single line there is nothing that it
could be greedy about.

* `Node.segments`: the segments that a tree is formatted as.
* `Node.format_one_line_of_wider`: a well-typed tree that is formatted without a newline is
  formatted alike on each wider page.
-/

namespace GlimmerFormat.Node

/-- The segments of the text of a whole tree. -/
def segments (s : Settings) (n : Node) : Except Fault (List Segment) := do
  let d ← (n.toDocument s).outcome
  d.segments s.page

/-- The text of a whole tree is that of its segments. -/
lemma outcome_format_of_segments {s : Settings} {n : Node} {ss : List Segment}
    (h : n.segments s = .ok ss) : (n.format s).outcome = .ok (Segment.joined ss) := by
  rw [segments] at h
  cases hd : (n.toDocument s).outcome with
  | error e => simp [hd, bind, Except.bind] at h
  | ok d =>
    have hlayout : d.segments s.page = .ok ss := by simpa [hd, bind, Except.bind] using h
    rw [Document.segments] at hlayout
    rw [outcome_format_of_ok hd, Document.layout, Laying.text, hlayout]
    rfl

/-- A well-typed tree is laid out as its markup. -/
lemma segments_eq_of_wellTyped (s : Settings) {n : Node} (hn : n.WellTyped) :
    n.segments s = (Document.ofList [(n.markup s.style).document]).segments s.page := by
  rw [segments, outcome_toDocument hn]
  rfl

/-- A well-typed tree is formatted without a fault, and if no newline is emitted, it is formatted
as the same segments and as the same text at each greater width. -/
theorem format_one_line_of_wider (s : Settings) {n : Node} (hn : n.WellTyped) :
    ∃ segments, n.segments s = .ok segments ∧
      (n.format s).outcome = .ok (Segment.joined segments) ∧
      ((∀ segment ∈ segments, segment.isNewline = false) → ∀ width, s.printWidth ≤ width →
        n.segments { s with printWidth := width } = .ok segments ∧
          (n.format { s with printWidth := width }).outcome = .ok (Segment.joined segments)) := by
  have hstraight : (Document.ofList [(n.markup s.style).document]).IsStraight :=
    Document.keptByBuilders_isStraight.ofList (List.forall_mem_singleton.mpr (isStraight_markup hn))
  obtain ⟨log, column, hlay⟩ := Document.exists_layOut s.page hstraight.isProper
  have hsegments : n.segments s = .ok (Segment.settle (LayoutEvent.segments log)) := by
    rw [segments_eq_of_wellTyped s hn, Document.segments, Laying.segments, hlay]
    rfl
  refine ⟨_, hsegments, outcome_format_of_segments hsegments, ?_⟩
  intro hinline width hwidth
  have hwider : n.segments { s with printWidth := width } =
      .ok (Segment.settle (LayoutEvent.segments log)) := by
    rw [segments_eq_of_wellTyped _ hn] at hsegments ⊢
    exact Document.segments_of_wider hwidth hstraight hsegments hinline
  exact ⟨hwider, outcome_format_of_segments hwider⟩

/-- A tag on a page that is too narrow for it: with more room its groups are no longer broken, and
the text stays the same. -/
theorem format_one_line_of_wider_sample :
    let n : Node := .program (.list [.node (.element (.str "img") (.list [.node (.attr (.str "alt")
      (.node (.text (.str "x"))))]) (.list []) (.list []) (.list []))]) (.list [])
    n.WellTyped ∧ (n.format { printWidth := 4 }).outcome = .ok "<img alt=\"x\" />" ∧
      ∀ width : Int, 4 ≤ width →
        (n.format { printWidth := width }).outcome = .ok "<img alt=\"x\" />" := by
  intro n
  have hattr : WellTyped (.attr (.str "alt") (.node (.text (.str "x")))) :=
    .attr "alt" rfl (.text "x")
  have helement : WellTyped (.element (.str "img")
      (.list ([.attr (.str "alt") (.node (.text (.str "x")))].map .node)) (.list ([].map .node))
      (.list ([].map .node)) (.list ([].map .str))) :=
    .element "img" (by simp [Node.kind]) (by simpa using hattr) (by simp) (by simp) (by simp)
      (by simp) []
  have hn : WellTyped (.program (.list ([.element (.str "img") (.list [.node (.attr (.str "alt")
      (.node (.text (.str "x"))))]) (.list []) (.list []) (.list [])].map .node))
      (.list ([].map .str))) :=
    .program (by simp [Node.kind, Kind.isStatement]) (by simpa using helement) []
  obtain ⟨segments, hsegments, htext, hwider⟩ :=
    format_one_line_of_wider { printWidth := 4 } hn
  have hrun : n.segments { printWidth := 4 } = .ok [.text "<", .text "img", .text " ", .text "alt",
      .text "=", .text "\"", .text "x", .text "\"", .text " />"] := by decide +kernel
  obtain rfl := Except.ok.inj (hrun.symm.trans hsegments)
  exact ⟨hn, htext, fun width hwidth => (hwider (by decide) width hwidth).2⟩

end GlimmerFormat.Node
