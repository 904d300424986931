import GlimmerFormat.Proofs.Layout.Choice
import GlimmerFormat.Proofs.Layout.Shifted

/-!
# Documents on lines of their own

What stands on lines of its own is laid out by itself.  A group that holds a newline breaks, so its
newlines cut it in parts, and a part that starts on an indented line is laid out as on a page that
is narrower by the indentation.

* `Document.layout_of_layout_group`: a group with a newline is laid out like what is in it.
* `Document.layout_append_indented`: an indented document behind others, on lines of its own.
-/

namespace GlimmerFormat

/-- A unit of indentation is trimmed away. -/
lemma Text.IsUnit.trimmed_eq {tabWidth : Int} {unit : String} {k : Nat}
    (h : IsUnit tabWidth unit k) : trimmed unit = "" := by
  rw [← String.toList_eq_nil_iff, toList_trimmed, List.rdropWhile_eq_nil_iff]
  cases h <;> simp [isTrailing]

namespace Document

variable {page : Page} {k : Nat} {d : Document} {ds xs : List Document}

/-! ## Groups with a newline -/

/-- Flat documents with a newline among them leave no room behind them. -/
lemma spendAll_flat_ne_leaves (h : .hardline ∈ ds) (room r : Int) :
    spendAll .flat ds room ≠ .leaves r := by
  induction ds generalizing room with
  | nil => cases h
  | cons d ds ih =>
    intro hr
    obtain ⟨s, hs, hr⟩ := Measure.andThen_eq_leaves.mp hr
    rcases List.mem_cons.mp h with rfl | h
    · cases hs
    · exact ih h s hr

/-- What is built with a newline has no flat layout. -/
lemma spend_flat_ofList_ne_leaves (h : .hardline ∈ ds) (room r : Int) :
    (ofList ds).spend .flat room ≠ .leaves r := by
  have hpieces : .hardline ∈ ds.flatMap pieces :=
    List.mem_flatMap.mpr ⟨.hardline, h, by simp [pieces]⟩
  rw [ofList]
  split
  · next hnone => simp [hnone] at hpieces
  · next e hsingle =>
    rw [hsingle] at hpieces
    obtain rfl := List.mem_singleton.mp hpieces
    intro hr
    cases hr
  · intro hr
    obtain ⟨-, hr⟩ := Measure.ofRoom_andThen_eq_leaves.mp hr
    exact spendAll_flat_ne_leaves hpieces room r hr

/-- A group that is built with a newline is laid out like what is in it. -/
lemma layout_of_layout_group (hds : .hardline ∈ ds) {text : String}
    (h : (group (ofList ds)).layout page = .ok text) : (concat ds).layout page = .ok text := by
  obtain ⟨log, column, hlay, rfl⟩ := layout_eq_ok.mp h
  rcases lay_group_eq_ok.mp hlay with ⟨hfits, -⟩ | ⟨-, behind, hd, rfl⟩
  · obtain ⟨r, hr, -⟩ := Pending.allFit_flat_cons.mp hfits
    exact absurd hr (spend_flat_ofList_ne_leaves hds _ r)
  · rw [← layout_ofList]
    exact layout_eq_ok.mpr ⟨behind, column, hd, rfl⟩

/-! ## Indented documents -/

/-- The lines of a plain document that ends firm may be indented without looking at their ends. -/
lemma indented_of_layout (hunit : Text.IsOneLine page.unit) (hplain : d.IsPlain)
    (hfirm : d.endsFirm false = true) {text : String} (h : d.layout page = .ok text)
    {indentation : String} (hindentation : trimmed indentation = "") :
    Text.indented indentation text = Text.indentedShown indentation text := by
  obtain ⟨log, column, hlay, rfl⟩ := layout_eq_ok.mp h
  have hone := onOneLine_of_layOut hunit hplain hlay
  have hfirst : Text.IsOneLine Line.first.text := Text.isOneLine_empty
  have hclosed : ∀ t ∈ (Line.first.closedLines (LayoutEvent.segments log)).map
      (fun l => l.trim.text), Text.IsOneLine t ∧ trimmed t = t := by
    intro t ht
    obtain ⟨l, hl, rfl⟩ := List.mem_map.mp ht
    have hinline := Line.isInline_of_mem_closedLines (by simp [Line.IsInline, Line.first]) hl
    rw [Line.text_trim hinline]
    exact ⟨(Line.isOneLine_text_of_mem_closedLines hfirst hone l hl).trimmed,
      by simpa using trimmed_append_trimmed "" l.text⟩
  have hopen := endsFirm_openLine hfirm hlay
  have hne : (Line.first.openLine (LayoutEvent.segments log)).text ≠ "" := by
    intro hempty
    rw [hempty] at hopen
    cases hopen
  rw [Segment.joined_settle]
  exact Text.indented_eq_indentedShown hindentation (fun t ht => (hclosed t ht).1)
    (fun t ht => (hclosed t ht).2) (Line.isOneLine_text_openLine hfirst hone) hne

/-- Measuring goes no further than a newline, however it is indented. -/
lemma alike_indent_hardline (d : Document) :
    Pending.Alike [⟨.broken, .concat [.indent (ofList [.hardline, d])]⟩] [] := by
  have hbreak : IsBreak .hardline := trivial
  have hconcat := Pending.alike_concat .broken [.indent (ofList [.hardline, d])] []
  have hindent := Pending.alike_indent .broken (ofList [.hardline, d]) []
  have hlist := Pending.alike_ofList .broken [.hardline, d] []
  exact ((hconcat.trans hindent).trans hlist).trans (alike_break hbreak [d] [])

/-- An indented document on lines of its own, behind others that end firm, is laid out like the
document by itself on a narrower page, with a unit of indentation in front of each line. -/
theorem layout_append_indented (hunit : Text.IsUnit page.tabWidth page.unit k)
    (hplain : d.IsPlain) (hfirm : d.endsFirm false = true) (hxs : endFirm false xs = true)
    {first text : String} (hfirst : (concat xs).layout page = .ok first)
    (htext : d.layout (page.narrowed k) = .ok text) :
    (concat (xs ++ [.indent (ofList [.hardline, d])])).layout page =
      .ok (first ++ "\n" ++ Text.indentedShown page.unit text) := by
  have htrimmed : trimmed first = first := trimmed_of_layout (d := .concat xs) hxs hfirst
  have hunitLine : Text.IsOneLine (page.narrowed k).unit := hunit.isOneLine
  have hindented := indented_of_layout hunitLine hplain hfirm htext hunit.trimmed_eq
  obtain ⟨log₁, column₁, hlay₁, rfl⟩ := layout_eq_ok.mp hfirst
  obtain ⟨log₂, column₂, hlay₂, rfl⟩ := layout_eq_ok.mp htext
  have hone := onOneLine_of_layOut hunitLine hplain hlay₂
  have hbefore : layAll page "" .broken xs
      [⟨.broken, .concat [.indent (ofList [.hardline, d])]⟩] 0 = ⟨log₁, .ok column₁⟩ :=
    (layAll_congr (fun d _ _ _ => d.lay_congr page "" .broken) (alike_indent_hardline d) 0).trans
      hlay₁
  have hbehind : layAll page "" .broken [.indent (ofList [.hardline, d])] [] column₁ =
      (indent (.concat [.hardline, d])).layOut page := by
    rw [layAll_singleton, lay, lay_ofList]
    rfl
  have hlay : (concat (xs ++ [.indent (ofList [.hardline, d])])).layOut page =
      ⟨log₁ ++ .emitted (.newline page.unit) :: log₂.map (LayoutEvent.shifted page.unit k),
        .ok (k + column₂)⟩ := by
    rw [layOut, lay, layAll_append, hbefore, Traced.ok_bind, hbehind,
      layOut_indent_hardline hunit hlay₂]
  refine layout_eq_ok.mpr ⟨_, _, hlay, ?_⟩
  rw [LayoutEvent.segments_append, LayoutEvent.segments_emitted, LayoutEvent.segments_map_shifted,
    Segment.joined_settle_append_newline, Segment.joined_settle_shifted page.unit hone, htrimmed,
    hindented, String.append_assoc]

end Document

end GlimmerFormat
