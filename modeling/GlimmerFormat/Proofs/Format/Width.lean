import GlimmerFormat.Format
import GlimmerFormat.Proofs.Layout.Overflow
import GlimmerFormat.Proofs.Printing.Regular

/-!
# The width of formatted templates

A formatted template may have lines that are wider than the page, but only where nothing can be
done about it.  `Node.lines` are the lines of a formatted tree, cut where the layout starts a
line, so that a line feed inside a text of the template ends no line.

The main result is `Node.format_overflow_unavoidable`: a well-typed program is formatted without
a fault, and each line that is wider than the page is also a line of the tree formatted with
everything broken.  It joins what printing guarantees, a regular document, to what the layout
guarantees of such documents.
-/

namespace GlimmerFormat

namespace Node

/-- The lines of the text of a whole tree. -/
def lines (s : Settings) (n : Node) : Except Fault (List Line) := do
  let d ← (n.toDocument s).outcome
  return Line.ofSegments (← d.segments s.page)

/-- The text of a whole tree is its lines with newlines between them. -/
theorem outcome_format (s : Settings) (n : Node) :
    (n.format s).outcome =
      (n.lines s).map fun lines => "\n".intercalate (lines.map Line.text) := by
  have hjoined : ∀ segments, Segment.joined segments =
      "\n".intercalate ((Line.ofSegments segments).map Line.text) := by
    intro segments
    have h := Line.intercalate_text .first segments
    rw [← Line.ofSegments] at h
    simpa [Line.first, Line.text] using h.symm
  rw [format, Traced.outcome_bind, lines]
  cases (n.toDocument s).outcome with
  | error e => rfl
  | ok d =>
    cases hsegments : d.segments s.page with
    | error e =>
      rw [Document.segments] at hsegments
      simp [Laying.text, hsegments, Document.segments, Except.bind, Except.map, bind]
    | ok segments =>
      rw [Document.segments] at hsegments
      simp [Laying.text, hsegments, Document.segments, Except.bind, Except.map, bind, pure,
        Except.pure, hjoined]

/-- A well-typed program is printed as a document that is regular by itself. -/
lemma exists_toDocument (s : Settings) {n : Node} (hn : n.WellTyped) (hkind : n.kind = .program) :
    ∃ d, (n.toDocument s).outcome = .ok d ∧ d.IsRegular true := by
  have hprints : n.PrintsRegular s.style := yields_print hn
  have hprinted := hprints.yields_value 0
  have hdocument : (n.toDocument s).Yields fun d => d.IsRegular true :=
    hprinted.bind fun p hp => Traced.yields_pure (by simpa [hkind] using hp)
  exact hdocument

/-- A well-typed program is formatted without a fault, on any page, and each line of its text
that is wider than the page is a line of its text on a page of negative width, where every group
is broken and every word stands alone.  So it holds no break that stayed on it. -/
theorem format_overflow_unavoidable (s : Settings) {n : Node} (hn : n.WellTyped)
    (hkind : n.kind = .program) :
    ∃ lines broken, n.lines s = .ok lines ∧ n.lines { s with printWidth := -1 } = .ok broken ∧
      (n.format s).outcome = .ok ("\n".intercalate (lines.map Line.text)) ∧
      (n.format { s with printWidth := -1 }).outcome =
        .ok ("\n".intercalate (broken.map Line.text)) ∧
      ∀ l ∈ lines, s.printWidth < l.width s.tabWidth → l ∈ broken ∧ ¬ l.HasFlatBreak := by
  obtain ⟨d, hd, hregular⟩ := exists_toDocument s hn hkind
  obtain ⟨segments, hsegments, hwide⟩ := Document.overflowing_line_mem_spread s.page hregular
  have hbroken : d.segments (Settings.page { s with printWidth := -1 }) =
      .ok (Segment.settle (d.spread s.unit "")) :=
    Document.segments_eq_of_neg (by simp [Settings.page]) hregular.isProper
  have hlines : n.lines s = .ok (Line.ofSegments segments) := by
    rw [lines, hd]
    simp [hsegments, bind, Except.bind, pure, Except.pure]
  have hspread : n.lines { s with printWidth := -1 } =
      .ok (Line.ofSegments (Segment.settle (d.spread s.unit ""))) := by
    have hd' : (n.toDocument { s with printWidth := -1 }).outcome = .ok d := hd
    rw [lines, hd']
    simp [hbroken, bind, Except.bind, pure, Except.pure]
  refine ⟨_, _, hlines, hspread, ?_, ?_, ?_⟩
  · rw [outcome_format, hlines]
    rfl
  · rw [outcome_format, hspread]
    rfl
  · intro l hl hlt
    have hmem := hwide l hl hlt
    exact ⟨hmem, Line.not_hasFlatBreak_of_spread hmem⟩

/-- An element around some text, on a page of eight columns. -/
theorem format_element_overflow_unavoidable :
    ∃ lines broken : List Line,
      Node.lines { printWidth := 8 } (.program (.list [.node (.element (.str "pre") (.list [])
        (.list []) (.list [.node (.text (.str "some longer words"))]) (.list []))]) (.list [])) =
        .ok lines ∧
      Node.lines { printWidth := -1 } (.program (.list [.node (.element (.str "pre") (.list [])
        (.list []) (.list [.node (.text (.str "some longer words"))]) (.list []))]) (.list [])) =
        .ok broken ∧
      ∀ l ∈ lines, (8 : Int) < l.width 2 → l ∈ broken ∧ ¬ l.HasFlatBreak := by
  have helement : WellTyped (.element (.str "pre") (.list ([].map .node)) (.list ([].map .node))
      (.list ([.text (.str "some longer words")].map .node)) (.list ([].map .str))) :=
    .element "pre" (by simp) (by simp) (by simp) (by simp)
      (by simp [Node.kind, Kind.isStatement]) (by simpa using .text "some longer words") []
  have hprogram : WellTyped (.program (.list ([.element (.str "pre") (.list []) (.list [])
      (.list [.node (.text (.str "some longer words"))]) (.list [])].map .node))
      (.list ([].map .str))) :=
    .program (by simp [Node.kind, Kind.isStatement]) (by simpa using helement) []
  obtain ⟨lines, broken, hlines, hbroken, -, -, hwide⟩ :=
    format_overflow_unavoidable { printWidth := 8 } hprogram rfl
  exact ⟨lines, broken, hlines, hbroken, hwide⟩

end Node

end GlimmerFormat
