import GlimmerFormat.Proofs.Format.Statements
import GlimmerFormat.Proofs.Printing.Thinning

/-!
# Blank texts in formatted templates

Blank texts among the statements of a template, of a block or of an element are not printed.  The
text of a template without some of them is the same text, as long as every body of a block that has
statements keeps one, be it blank.  A body that loses its last one loses the empty line that was
printed for it.

* `Node.format_dropsBlank`: one blank text left out.
* `Node.format_thinned`: any number of them left out.
* `Node.format_blank_body`: a block with an empty line for a blank text.
-/

namespace GlimmerFormat

/-- Whatever the settings are, a level of indentation is spaces or a tab. -/
lemma Settings.isSpacing_unit (s : Settings) : Text.IsSpacing s.page.unit := by
  cases htabs : s.useTabs with
  | true =>
    have hunit : s.page.unit = "\t" := s.unit_of_useTabs htabs
    rw [hunit]
    rfl
  | false =>
    have hunit : s.page.unit = String.ofList (List.replicate s.tabWidth.toNat ' ') := by
      simp [page, unit, htabs]
    rw [hunit, Text.isSpacing_iff]
    simp [isTrailing]

namespace Node

variable {n n' : Node}

/-- A tree without one of its blank texts has the same text, or one more of its bodies is empty and
its text lacks an empty line. -/
theorem format_dropsBlank (s : Settings) (hn : n.WellTyped) (h : n.DropsBlank n') {text : String}
    (htext : (n.format s).outcome = .ok text) :
    ∃ text', (n'.format s).outcome = .ok text' ∧
      ((text' = text ∧ n'.emptyBodies = n.emptyBodies) ∨
        (Text.DropsEmptyLine text text' ∧ n'.emptyBodies = n.emptyBodies + 1)) := by
  rw [outcome_format_eq_layout hn] at htext
  rw [outcome_format_eq_layout (h.wellTyped hn)]
  rcases thins_markup s.style s.isSpacing_unit h hn with ⟨hmarkup, hcount⟩ | ⟨hdrops, hcount⟩
  · exact ⟨text, hmarkup ▸ htext, .inl ⟨rfl, hcount⟩⟩
  · obtain ⟨text', htext', hline⟩ := hdrops.layout htext
    exact ⟨text', htext', .inr ⟨hline, hcount⟩⟩

/-- A well-typed tree stays so without blank texts. -/
lemma Thinned.wellTyped (h : Thinned n n') (hn : n.WellTyped) : n'.WellTyped := by
  induction h with
  | refl => exact hn
  | tail _ hstep ih => exact hstep.wellTyped ih

/-- The text of a tree without some of its blank texts lacks one empty line for each body of a block
that is left without statements, and nothing else.  So it is the same text exactly if there is no
such body. -/
theorem format_thinned (s : Settings) (hn : n.WellTyped) (h : Thinned n n') :
    ∃ text text' k, (n.format s).outcome = .ok text ∧ (n'.format s).outcome = .ok text' ∧
      n'.emptyBodies = n.emptyBodies + k ∧ Text.DropsEmptyLines k text text' ∧
      (text = text' ↔ n'.emptyBodies = n.emptyBodies) := by
  obtain ⟨text, htext⟩ := exists_format s hn
  obtain ⟨text', k, htext', hcount, hlines⟩ : ∃ text' k, (n'.format s).outcome = .ok text' ∧
      n'.emptyBodies = n.emptyBodies + k ∧ Text.DropsEmptyLines k text text' := by
    induction h with
    | refl => exact ⟨text, 0, htext, rfl, .refl text⟩
    | tail hrun hstep ih =>
      obtain ⟨text₁, k, htext₁, hcount₁, hlines₁⟩ := ih
      obtain ⟨text₂, htext₂, ⟨rfl, hcount₂⟩ | ⟨hline, hcount₂⟩⟩ :=
        format_dropsBlank s (Thinned.wellTyped hrun hn) hstep htext₁
      · exact ⟨text₂, k, htext₂, hcount₂.trans hcount₁, hlines₁⟩
      · exact ⟨text₂, k + 1, htext₂, by omega, hlines₁.step hline⟩
  refine ⟨text, text', k, htext, htext', hcount, hlines, ?_⟩
  rw [hlines.eq_iff]
  omega

/-- A block with the given statements as its body. -/
def conditional (statements : List Node) : Node :=
  .block (.node (calleeNamed "if")) (.list ([calleeNamed "cond"].map .node)) (.node noNames)
    (.node (programOf statements [])) (none.elim .null .node)

/-- A block with statements as its body may stand in the body of a program. -/
lemma isStatement_conditional {statements : List Node} (h : ∀ m ∈ statements, m.IsStatement) :
    (conditional statements).IsStatement := by
  have hcond : (calleeNamed "cond").WellTyped := .path _ _
  refine ⟨.block ⟨rfl, ?_, rfl⟩ (.path _ _) ?_ wellTyped_noNames rfl (wellTyped_programOf h [])
    (by simp) (by simp), rfl⟩
  · simp [calleeNamed, kind, Kind.isExpression]
  · simpa using hcond

/-- A text before a block and the only one in it are left out: the text has one line less. -/
theorem format_thinned_sample :
    ∃ text text', ((programOf [.text (.str "\n"), conditional [.text (.str " ")]] []).format
        { useTabs := true }).outcome = .ok text ∧
      ((programOf [conditional []] []).format { useTabs := true }).outcome = .ok text' ∧
      Text.DropsEmptyLines 1 text text' ∧ text ≠ text' := by
  have hblank : ∀ s : String, IsStatement (.text (.str s)) := fun s => ⟨.text s, rfl⟩
  have hconditional := isStatement_conditional (List.forall_mem_singleton.mpr (hblank " "))
  have hwell : (programOf [.text (.str "\n"), conditional [.text (.str " ")]] []).WellTyped :=
    wellTyped_programOf (by simpa using ⟨hblank _, hconditional⟩) []
  have hbody : (programOf [.text (.str " ")] []).DropsBlank (programOf [] []) :=
    .fromProgram rfl [] [] _
  have hfirst : (programOf [.text (.str "\n"), conditional [.text (.str " ")]] []).DropsBlank
      (programOf [conditional [.text (.str " ")]] []) := .fromProgram rfl [] [_] _
  have hsecond : (programOf [conditional [.text (.str " ")]] []).DropsBlank
      (programOf [conditional []] []) := .inProgram (.inContent hbody _ _ _ _) [] [] _
  obtain ⟨text, text', k, htext, htext', hcount, hlines, hiff⟩ :=
    format_thinned { useTabs := true } hwell (.tail (.single hfirst) hsecond)
  have hnone : (programOf [.text (.str "\n"), conditional [.text (.str " ")]] []).emptyBodies = 0 :=
    rfl
  have hone : (programOf [conditional []] []).emptyBodies = 1 := rfl
  obtain rfl : k = 1 := by omega
  exact ⟨text, text', htext, htext', hlines, fun h => absurd (hiff.mp h) (by decide)⟩

/-- The body of the block is one blank text, and the text of the template has an empty line for it.
-/
theorem format_blank_body :
    (programOf [conditional [.text (.str " ")]] []).WellTyped ∧
      (programOf [conditional [.text (.str " ")]] []).DropsBlank (programOf [conditional []] []) ∧
      ((programOf [conditional [.text (.str " ")]] []).format {}).outcome =
        .ok "\x7b\x7b#if cond\x7d\x7d\n\n\x7b\x7b/if\x7d\x7d" ∧
      ((programOf [conditional []] []).format {}).outcome =
        .ok "\x7b\x7b#if cond\x7d\x7d\n\x7b\x7b/if\x7d\x7d" := by
  have hblank : IsStatement (.text (.str " ")) := ⟨.text " ", rfl⟩
  have hbody : (programOf [.text (.str " ")] []).DropsBlank (programOf [] []) :=
    .fromProgram rfl [] [] _
  refine ⟨?_, .inProgram (.inContent hbody _ _ _ _) [] [] _, rfl, rfl⟩
  exact wellTyped_programOf
    (List.forall_mem_singleton.mpr (isStatement_conditional (List.forall_mem_singleton.mpr hblank)))
    []

end Node

end GlimmerFormat
