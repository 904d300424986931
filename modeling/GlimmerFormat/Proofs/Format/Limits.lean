import GlimmerFormat.Proofs.Format.OneLine
import GlimmerFormat.Proofs.Layout.Limits
import GlimmerFormat.Proofs.Printing.Faults
import GlimmerFormat.Proofs.Printing.Written

/-!
# Limits of formatting

`Node.format` tells what the text of a tree is with integers of any size.  Formatting comes to that
text or runs into a limit on the way: a number with too many digits, more spaces in a level of
indentation than a text can have, or, at the first newline, a tab width that no indentation can be
measured with.

* `Node.formatChecked_eq_format`: within the limits both are the same.
* `Node.outcome_format_of_formatChecked`: a text that formatting comes to is always the right one.
* `Node.outcome_formatChecked_cases`: a tree that is printed is laid out, or runs into a limit.
* `Node.format_or_limit`: of a well-typed tree nothing but a limit can stop formatting, and the
  first one that is met does.
-/

namespace GlimmerFormat

namespace Settings

variable {s : Settings}

/-- A level of indentation that can be written out. -/
lemma page?_of_holds (h : s.useTabs = true ∨ MachineInt.int64.Holds s.tabWidth) :
    s.page? = .ok s.page := by
  rw [page?, unit?, if_pos h]
  rfl

/-- A level of indentation of too many spaces. -/
lemma page?_of_not_holds (h : ¬ (s.useTabs = true ∨ MachineInt.int64.Holds s.tabWidth)) :
    s.page? = .error (.overflow .int64) := by
  rw [page?, unit?, if_neg h]
  rfl

end Settings

/-- A row cannot happen only if a number in it cannot be written. -/
lemma LogRow.check_eq_error {row : LogRow} {e : Fault} (h : row.check = .error e) :
    e = .unwritable := by
  cases row with
  | visiting depth v => exact (Value.visited_eq_error h).2
  | _ => cases h

namespace Node

variable {s : Settings} {n : Node} {d : Document}

/-! ## Printing -/

/-- Printing a whole tree meets what is in the tree. -/
lemma meets_toDocument (s : Settings) (n : Node) :
    (n.toDocument s).Meets (Fault.IsMetIn n) Document.strays := by
  have hvisited : ∀ e, (Value.node n).visited = .error e → e.IsMetIn n := fun e he =>
    Value.isMetIn_of_visited (List.Subset.refl _) he
  have hprinted : (n.printed s).Meets (Fault.IsMetIn n) Part.strays :=
    (Traced.ends_note hvisited).bind fun _ _ => n.meets_print 0
  refine hprinted.bind fun part hpart => Traced.ends_pure ?_
  rw [Document.strays_ofList, List.flatMap_singleton]
  exact hpart

/-- A tree whose integers can be written is printed as without the limit. -/
lemma toDocumentChecked_of_isWritable (hn : n.IsWritable) (s : Settings) :
    n.toDocumentChecked s = n.toDocument s := by
  refine Traced.checked_of_forall_passes fun row hrow => ?_
  cases hcheck : row.check with
  | ok u => rfl
  | error e =>
    have hmet : e.IsMetIn n := (n.meets_toDocument s).log row hrow e hcheck
    obtain rfl := LogRow.check_eq_error hcheck
    exact absurd hn hmet

/-- A well-typed tree with an integer that cannot be written is not printed. -/
lemma outcome_toDocumentChecked_of_not_isWritable (hn : n.WellTyped) (h : ¬ n.IsWritable)
    (s : Settings) : (n.toDocumentChecked s).outcome = .error .unwritable := by
  rcases Traced.checked_cases LogRow.check (n.toDocument s) with ⟨hall, -⟩ | hstops
  · have hpasses : (n.toDocument s).Passes := hall
    exact absurd (showsIntegers hn 0 hpasses.first) h
  · obtain ⟨before, row, behind, e, -, -, hrow, hchecked⟩ := hstops
    rw [toDocumentChecked, hchecked, LogRow.check_eq_error hrow]

/-! ## Formatting -/

/-- A tree that is not printed is not formatted. -/
lemma outcome_formatChecked_of_error {e : Fault} (h : (n.toDocumentChecked s).outcome = .error e) :
    (n.formatChecked s).outcome = .error e :=
  Traced.outcome_bind_of_error h

/-- A tree that is printed as a document is formatted as the layout of the document, if there can be
a page. -/
lemma outcome_formatChecked_of_ok (h : (n.toDocumentChecked s).outcome = .ok d) :
    (n.formatChecked s).outcome = s.page?.bind fun page => d.layoutChecked page := by
  rw [formatChecked, Traced.outcome_bind, h]
  cases s.page? <;> rfl

/-- Within the limits a tree is formatted as without them. -/
theorem formatChecked_eq_format (hn : n.IsWritable) (hs : MachineInt.int32.Holds s.tabWidth) :
    n.formatChecked s = n.format s := by
  have hpage : s.page? = .ok s.page := Settings.page?_of_holds (.inr hs.int64)
  rw [formatChecked, format, toDocumentChecked_of_isWritable hn, hpage]
  refine bind_congr fun d => ?_
  have hlaid : d.layOutChecked s.page = d.layOut s.page := Document.layOutChecked_of_holds hs d
  rw [← hlaid]
  rfl

/-- Formatting runs into a limit of the tab width. -/
def Overflows (s : Settings) (n : Node) : Prop :=
  ∃ kind : MachineInt, ¬ kind.Holds s.tabWidth ∧
    (n.formatChecked s).outcome = .error (.overflow kind)

/-- A tree that is printed is laid out as without the limits, or runs into one of the tab width. -/
lemma outcome_formatChecked_cases (h : (n.toDocumentChecked s).outcome = .ok d) :
    (n.formatChecked s).outcome = d.layout s.page ∨ n.Overflows s := by
  by_cases hunit : s.useTabs = true ∨ MachineInt.int64.Holds s.tabWidth
  · have hformat : (n.formatChecked s).outcome = d.layoutChecked s.page := by
      rw [outcome_formatChecked_of_ok h, Settings.page?_of_holds hunit]
      rfl
    rcases Document.layoutChecked_cases s.page d with hlayout | ⟨htab, hlayout⟩
    · exact .inl (hformat.trans hlayout)
    · exact .inr ⟨.int32, htab, hformat.trans hlayout⟩
  · refine .inr ⟨.int64, fun htab => hunit (.inr htab), ?_⟩
    rw [outcome_formatChecked_of_ok h, Settings.page?_of_not_holds hunit]
    rfl

/-- A text that formatting comes to is the text without the limits. -/
theorem outcome_format_of_formatChecked {text : String}
    (h : (n.formatChecked s).outcome = .ok text) : (n.format s).outcome = .ok text := by
  cases hd : (n.toDocumentChecked s).outcome with
  | error e => exact nomatch (outcome_formatChecked_of_error hd).symm.trans h
  | ok d =>
    have hdocument := (Traced.outcome_checked_eq_ok.mp hd).2
    rcases outcome_formatChecked_cases hd with hlayout | ⟨kind, -, hoverflow⟩
    · rw [outcome_format_of_ok hdocument, ← hlayout, h]
    · exact nomatch hoverflow.symm.trans h

/-! ## Well-typed trees -/

/-- A well-typed tree has a text, whatever its root and the settings, and formatting comes to it
unless it runs into a limit.  A number with too many digits is met first, then a level of
indentation of too many spaces, and then, at the first newline, a tab width that indentation cannot
be measured with, even if there is no tab in it. -/
theorem format_or_limit (s : Settings) {n : Node} (hn : n.WellTyped) :
    ∃ d segments, (n.toDocument s).outcome = .ok d ∧ d.IsProper ∧
      d.segments s.page = .ok segments ∧
      (n.format s).outcome = .ok (Segment.joined segments) ∧
      (n.formatChecked s).outcome =
        if ¬ n.IsWritable then .error .unwritable
        else if s.useTabs = false ∧ ¬ MachineInt.int64.Holds s.tabWidth then
          .error (.overflow .int64)
        else if segments.any Segment.isNewline ∧ ¬ MachineInt.int32.Holds s.tabWidth then
          .error (.overflow .int32)
        else .ok (Segment.joined segments) := by
  obtain ⟨d, hd⟩ : ∃ d, (n.toDocument s).outcome = .ok d := ⟨_, outcome_toDocument hn⟩
  have hproper := isProper_toDocument hn hd
  obtain ⟨segments, hsegments⟩ := Document.exists_segments s.page hproper
  have hlayout := Document.layout_of_segments hsegments
  refine ⟨d, segments, hd, hproper, hsegments, (outcome_format_of_ok hd).trans hlayout, ?_⟩
  -- Printing comes before the unit of indentation, and this before the layout.
  by_cases hwritable : n.IsWritable
  · have hchecked : (n.toDocumentChecked s).outcome = .ok d := by
      rw [toDocumentChecked_of_isWritable hwritable, hd]
    rw [if_neg (not_not.mpr hwritable), outcome_formatChecked_of_ok hchecked]
    by_cases hunit : s.useTabs = true ∨ MachineInt.int64.Holds s.tabWidth
    · rw [if_neg (by simpa [imp_iff_not_or] using hunit), Settings.page?_of_holds hunit]
      exact Document.layoutChecked_of_segments hsegments
    · rw [if_pos (by simpa using hunit), Settings.page?_of_not_holds hunit]
      rfl
  · rw [if_pos hwritable]
    exact outcome_formatChecked_of_error
      (outcome_toDocumentChecked_of_not_isWritable hn hwritable s)

/-- The sample on a narrow page with tabs is within the limits. -/
theorem format_or_limit_sample :
    sample.WellTyped ∧ ∃ text,
      (sample.format { printWidth := 12, useTabs := true }).outcome = .ok text ∧
      (sample.formatChecked { printWidth := 12, useTabs := true }).outcome = .ok text := by
  obtain ⟨d, segments, -, -, -, htext, hchecked⟩ :=
    format_or_limit { printWidth := 12, useTabs := true } wellTyped_sample
  have hwritable : sample.IsWritable := by decide
  have htab : MachineInt.int32.Holds 2 := by decide
  rw [if_neg (not_not.mpr hwritable), if_neg (by decide), if_neg fun h => h.2 htab] at hchecked
  exact ⟨wellTyped_sample, _, htext, hchecked⟩

/-- A block without statements.  Its end stands on a line of its own, without indentation. -/
def emptyBlock : Node :=
  .program (.list ([.block (.node (calleeNamed "if")) (.list ([calleeNamed "cond"].map .node))
    (.node noNames) (.node (.program (.list ([].map .node)) (.list ([].map .str))))
    ((none : Option Node).elim .null .node)].map .node)) (.list ([].map .str))

/-- The block is well-typed, and so is a number with too many digits; the one is stopped by the tab
width, although there is no tab to measure, and the other by its digits. -/
theorem formatChecked_not_total :
    emptyBlock.WellTyped ∧
      (emptyBlock.formatChecked { tabWidth := 2147483648, useTabs := true }).outcome =
        .error (.overflow .int32) ∧
      (Node.number (.int (Nat.pow 10 digitLimit))).WellTyped ∧
      ((Node.number (.int (Nat.pow 10 digitLimit))).formatChecked {}).outcome =
        .error .unwritable := by
  have hcontent : (Node.program (.list ([].map .node)) (.list ([].map .str))).WellTyped :=
    .program (by simp) (by simp) []
  have hblock : (Node.block (.node (calleeNamed "if")) (.list ([calleeNamed "cond"].map .node))
      (.node noNames) (.node (.program (.list ([].map .node)) (.list ([].map .str))))
      ((none : Option Node).elim .null .node)).WellTyped :=
    .block ⟨rfl, by simp [calleeNamed, kind, Kind.isExpression], rfl⟩ (.path _ _)
      (by simpa using .path _ _) wellTyped_noNames rfl hcontent nofun nofun
  have hprogram : emptyBlock.WellTyped :=
    .program (by simp [kind, Kind.isStatement]) (by simpa using hblock) []
  exact ⟨hprogram, by decide +kernel, .number rfl, by decide +kernel⟩

end Node

end GlimmerFormat
