import GlimmerFormat.Proofs.Format.Limits
import GlimmerFormat.Proofs.Printing.Ink

/-!
# The content of formatted templates

Formatting moves blanks and leaves all else as it is.  A well-typed tree is formatted as what it
says: without its blanks, the text is the tokens of the tree.  And of any tree, well-typed or not,
the width of the page and the indentation change nothing but spaces, tabs and newlines, not even
whether it is formatted at all, as long as the tab width is one that can be measured with.

* `Node.format_content`: the text of a well-typed tree has the ink of its tokens.
* `Node.formatChecked_spacing_only`: on two pages a tree is formatted with the same ink, or fails
  with the same fault, unless a tab width stops it.
-/

namespace GlimmerFormat

open Traced (Agree)

/-! ## Spacing -/

namespace Text

/-- Whether a character is one that a layout adds or drops. -/
def isSpacing (c : Char) : Bool :=
  c == ' ' || c == '\t' || c == '\n'

/-- The characters that a layout adds or drops cover themselves. -/
lemma coversSpacing_isSpacing : CoversSpacing isSpacing :=
  ⟨rfl, rfl, rfl⟩

/-- Blanks cover what a layout adds or drops. -/
lemma coversSpacing_isBlank : CoversSpacing isBlank :=
  ⟨rfl, rfl, rfl⟩

end Text

/-- A level of indentation is made of spacing. -/
lemma Settings.ink_unit {blank : Char → Bool} (hblank : Text.CoversSpacing blank) (s : Settings) :
    Text.ink blank s.page.unit = [] := by
  have hunit : s.page.unit = s.unit := rfl
  rw [hunit, Text.ink_eq_nil_iff, unit]
  intro c hc
  by_cases htabs : s.useTabs = true
  · rw [if_pos htabs] at hc
    obtain rfl : c = '\t' := by simpa using hc
    exact hblank.tab
  · rw [if_neg htabs, String.toList_ofList] at hc
    obtain rfl := List.eq_of_mem_replicate hc
    exact hblank.space

namespace Node

/-- A well-typed tree is formatted as what it says: apart from blanks, the text is that of the
tokens of the tree. -/
theorem format_content (s : Settings) {n : Node} (hn : n.WellTyped) :
    ∃ text, (n.format s).outcome = .ok text ∧
      Text.ink Text.isBlank text = Text.ink Text.isBlank (n.tokens s.style) := by
  have hd := outcome_toDocument (s := s) hn
  obtain ⟨text, hlayout⟩ := Document.exists_layout s.page (isProper_toDocument hn hd)
  have hink := Document.ink_of_layout Text.coversSpacing_isBlank
    (s.ink_unit Text.coversSpacing_isBlank) (isSteady_of_toDocument hd) hlayout
  have hmarkup : n.SaysTokens s.style := ink_markup hn
  refine ⟨text, ?_, ?_⟩
  · rw [outcome_format_of_ok hd, hlayout]
  · rw [hink, Document.ink_ofList, Document.inkAll_cons, Document.inkAll_nil, List.append_nil,
      hmarkup]

/-- The sample on a narrow page. -/
theorem format_content_sample :
    sample.WellTyped ∧ ∃ text, (sample.format { printWidth := 12 }).outcome = .ok text ∧
      Text.ink Text.isBlank text =
        ("\x7b\x7b#if\"ab\"nanas|item|\x7d\x7dsomewords\x7b\x7belse\x7d\x7d" ++
          "\x7b\x7b\x7bname\x7d\x7d\x7d\x7b\x7b/if\x7d\x7d<brclass=\"xy\"/>").toList := by
  have htokens : Text.ink Text.isBlank (sample.tokens .double) =
      ("\x7b\x7b#if\"ab\"nanas|item|\x7d\x7dsomewords\x7b\x7belse\x7d\x7d" ++
        "\x7b\x7b\x7bname\x7d\x7d\x7d\x7b\x7b/if\x7d\x7d<brclass=\"xy\"/>").toList := by
    decide
  obtain ⟨text, htext, hink⟩ := format_content { printWidth := 12 } wellTyped_sample
  exact ⟨wellTyped_sample, text, htext, hink.trans htokens⟩

/-- On a page of another width and with another indentation, a tree is formatted with other spaces,
tabs and newlines alone, and if it cannot be formatted, it is for the same fault, with the same
words.  Only a tab width that is too large for a machine integer can make a difference, by stopping
one of the two. -/
theorem formatChecked_spacing_only (s : Settings) (n : Node) (width tab : Int) (tabs : Bool) :
    Agree (fun text text' => Text.ink Text.isSpacing text = Text.ink Text.isSpacing text')
      (n.formatChecked s)
      (n.formatChecked { s with printWidth := width, tabWidth := tab, useTabs := tabs }) ∨
    n.Overflows s ∨
      n.Overflows { s with printWidth := width, tabWidth := tab, useTabs := tabs } := by
  cases hd : (n.toDocumentChecked s).outcome with
  | error e =>
    have hd' : (n.toDocumentChecked
        { s with printWidth := width, tabWidth := tab, useTabs := tabs }).outcome = .error e := hd
    exact .inl (.inl
      ⟨e, outcome_formatChecked_of_error hd, outcome_formatChecked_of_error hd'⟩)
  | ok d =>
    -- Printing reads the quote style alone, so the document is the same.
    have hd' : (n.toDocumentChecked
        { s with printWidth := width, tabWidth := tab, useTabs := tabs }).outcome = .ok d := hd
    rcases outcome_formatChecked_cases hd with hformat | hoverflows
    · rcases outcome_formatChecked_cases hd' with hformat' | hoverflows'
      · have hunit := fun t : Settings => t.ink_unit Text.coversSpacing_isSpacing
        have hsteady := isSteady_of_toDocument (Traced.outcome_checked_eq_ok.mp hd).2
        rcases Document.layout_on_two_pages Text.coversSpacing_isSpacing (hunit s) (hunit _) hsteady
          with ⟨e, hfails, hfails'⟩ | ⟨text, text', htext, htext', hink⟩
        · exact .inl (.inl ⟨e, hformat.trans hfails, hformat'.trans hfails'⟩)
        · exact .inl (.inr ⟨text, text', hformat.trans htext, hformat'.trans htext', hink⟩)
      · exact .inr (.inr hoverflows')
    · exact .inr (.inl hoverflows)

/-- Two calls one below the other. -/
def twoCalls : Node :=
  let call (name : String) : Node := .mustache (.node (calleeNamed name)) (.list [])
    (.node noNames) (.bool true)
  .program (.list [.node (call "a"), .node (call "b")]) (.list [])

/-- A tab width that no indentation can be measured with makes the difference, although there is no
indentation. -/
theorem formatChecked_not_spacing_only :
    (twoCalls.formatChecked { useTabs := true }).outcome =
        .ok "\x7b\x7ba\x7d\x7d\n\x7b\x7bb\x7d\x7d" ∧
      (twoCalls.formatChecked { useTabs := true, tabWidth := 2147483648 }).outcome =
        .error (.overflow .int32) := by
  decide +kernel

end Node

end GlimmerFormat
