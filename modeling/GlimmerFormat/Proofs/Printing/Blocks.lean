import GlimmerFormat.Proofs.Layout.OwnLines
import GlimmerFormat.Proofs.Printing.Markup

/-!
# The lines of a block

The end of a block stands on a line of its own, so the group that a block is always breaks, and
each of its parts starts on a line of its own: the body, the mark of the inverse, the body of the
inverse and the end.  What stands before such a part ends firm, so that the break between the two
takes nothing away.

* `Document.StandsBelow`: a document that adds lines to what stands before it.
* `Document.standsBelow_blockBody`, `Document.standsBelow_blockInverse`: the parts of a block do.
* `Document.layout_block`: a block is laid out as the lines of its parts below each other.
-/

namespace GlimmerFormat

/-- Lines below lines are the lines one below the other. -/
lemma Text.intercalate_cons_intercalate (first : String) (ls ms : List String) :
    "\n".intercalate ("\n".intercalate (first :: ls) :: ms) =
      "\n".intercalate (first :: ls ++ ms) := by
  cases ms with
  | nil => rw [String.intercalate_singleton, List.append_nil]
  | cons m ms =>
    rw [String.intercalate_append_of_ne_nil (by simp) (by simp),
      String.intercalate_cons_of_ne_nil (by simp)]

namespace Document

variable {page : Page} {k : Nat} {d : Document} {ls ms : List String}

/-! ## How a block is built -/

/-- A block is grouped, since its end starts a line. -/
lemma block_eq (header body inverse callee : Document) :
    Markup.block header body inverse callee =
      .group (ofList [header, body, inverse, .hardline, "\x7b\x7b/", callee, "\x7d\x7d"]) :=
  grouped_ofList (d := .hardline) (by simp) rfl rfl

/-- The body of a block is indented, since it starts a line. -/
lemma blockBody_eq (statements : Document) :
    Markup.blockBody statements = .indent (ofList [.hardline, statements]) :=
  indented_ofList (List.mem_cons_self ..) rfl rfl

/-- The inverse of a block adds a newline, its mark and its body to a concatenation. -/
lemma pieces_blockInverse (body : Document) :
    (Markup.blockInverse body).pieces =
      [.hardline, ("\x7b\x7belse\x7d\x7d" : Document), body].flatMap pieces := rfl

/-! ## Lines below what stands before -/

/-- Behind others that end firm, a document adds lines to their text, and ends firm too. -/
structure StandsBelow (page : Page) (d : Document) (ls : List String) : Prop where
  endsFirm : d.endsFirm true = true
  layout_append {xs : List Document} {first : String} (hxs : endFirm false xs = true)
    (hfirst : (concat xs).layout page = .ok first) :
    (concat (xs ++ [d])).layout page = .ok ("\n".intercalate (first :: ls))

/-- A document that stands below others that end firm ends firm behind them. -/
lemma StandsBelow.endFirm_append (h : StandsBelow page d ls) {xs : List Document}
    (hxs : endFirm false xs = true) : endFirm false (xs ++ [d]) = true := by
  rw [Document.endFirm_append, hxs]
  exact h.endsFirm

/-- What is empty adds no lines. -/
lemma standsBelow_empty (page : Page) : StandsBelow page .empty [] := by
  refine ⟨rfl, ?_⟩
  intro xs first hxs hfirst
  have hempty : ofList (xs ++ [.empty]) = ofList xs := ofList_congr (by simp)
  rw [← layout_ofList, hempty, layout_ofList, hfirst, String.intercalate_singleton]

/-- The body of a block adds the lines that its statements have on a narrower page. -/
lemma standsBelow_blockBody (hunit : Text.IsUnit page.tabWidth page.unit k) (hplain : d.IsPlain)
    (hfirm : ∀ before, d.endsFirm before = true) {text : String}
    (htext : d.layout (page.narrowed k) = .ok text) :
    StandsBelow page (Markup.blockBody d) [Text.indentedShown page.unit text] := by
  have hends : (Markup.blockBody d).endsFirm true = true := by
    rw [blockBody_eq, endsFirm, endsFirm_ofList]
    exact hfirm _
  refine ⟨hends, ?_⟩
  intro xs first hxs hfirst
  rw [blockBody_eq, layout_append_indented hunit hplain (hfirm false) hxs hfirst htext,
    String.intercalate_cons_of_ne_nil (by simp), String.intercalate_singleton]

/-- The inverse of a block adds the line of its mark and the lines of its body. -/
lemma standsBelow_blockInverse (h : StandsBelow page d ls) :
    StandsBelow page (Markup.blockInverse d) ("\x7b\x7belse\x7d\x7d" :: ls) := by
  have hmark : endFirm false [ofString "\x7b\x7belse\x7d\x7d"] = true := by decide
  have hbreak : IsBreak .hardline := trivial
  refine ⟨?_, ?_⟩
  · rw [Markup.blockInverse, endsFirm_ofList]
    exact h.endFirm_append hmark
  · intro xs first hxs hfirst
    have hbehind := h.layout_append hmark (layout_strings page ["\x7b\x7belse\x7d\x7d"])
    have hlist : ofList (xs ++ [Markup.blockInverse d]) =
        ofList (xs ++ .hardline :: ([ofString "\x7b\x7belse\x7d\x7d"] ++ [d])) :=
      ofList_congr (by simp [pieces_blockInverse])
    have htrimmed : trimmed first = first := trimmed_of_layout (d := .concat xs) hxs hfirst
    have hlines : "\n".intercalate (first :: "\x7b\x7belse\x7d\x7d" :: ls) =
        first ++ "\n" ++ "\n".intercalate ("\x7b\x7belse\x7d\x7d" :: ls) :=
      String.intercalate_cons_of_ne_nil (by simp)
    rw [← layout_ofList, hlist, layout_ofList, layout_append_break page hbreak, hfirst, hbehind,
      hlines]
    simp only [bind, Except.bind, pure, Except.pure, htrimmed]
    rfl

/-! ## Blocks -/

/-- The header of a block without statements is laid out if the block is. -/
lemma exists_layout_header {header callee : Document} {text : String}
    (h : (Markup.block header .empty .empty callee).layout page = .ok text) :
    ∃ first, header.layout page = .ok first := by
  have hbreak : IsBreak .hardline := trivial
  have hwhole := layout_of_layout_group (by simp) (block_eq .. ▸ h)
  have hcut := layout_append_break page hbreak [header, .empty, .empty]
    ["\x7b\x7b/", callee, "\x7d\x7d"]
  have hlist : ofList [header, .empty, .empty] = ofList [header] := ofList_congr (by simp)
  have hheader : (concat [header, .empty, .empty]).layout page = header.layout page := by
    rw [← layout_ofList, hlist, layout_ofList_singleton]
  rw [hheader] at hcut
  cases hfirst : header.layout page with
  | ok first => exact ⟨first, rfl⟩
  | error e =>
    rw [hfirst] at hcut
    exact nomatch hwhole.symm.trans hcut

/-- A block is laid out as the lines of its parts below each other. -/
theorem layout_block {header body inverse : Document} {name first text : String}
    (hheader : header.endsFirm false = true) (hfirst : header.layout page = .ok first)
    (hbody : StandsBelow page body ls) (hinverse : StandsBelow page inverse ms)
    (htext : (Markup.block header body inverse (ofString name)).layout page = .ok text) :
    text = "\n".intercalate (first :: ls ++ ms ++ ["\x7b\x7b/" ++ name ++ "\x7d\x7d"]) := by
  have hbreak : IsBreak .hardline := trivial
  have hfirm : endFirm false [header] = true := hheader
  have hbodyFirm := hbody.endFirm_append hfirm
  have hfirmParts := hinverse.endFirm_append hbodyFirm
  have hparts : (concat ([header] ++ [body] ++ [inverse])).layout page =
      .ok ("\n".intercalate (first :: ls ++ ms)) := by
    have hlines := hbody.layout_append hfirm ((layout_concat_singleton page header).trans hfirst)
    rw [hinverse.layout_append hbodyFirm hlines, Text.intercalate_cons_intercalate]
  have htrimmed := trimmed_of_layout (d := .concat ([header] ++ [body] ++ [inverse])) hfirmParts
    hparts
  -- The newline before the end breaks the group, and cuts the end off.
  have hwhole := layout_of_layout_group (by simp) (block_eq .. ▸ htext)
  have hend := layout_strings page ["\x7b\x7b/", name, "\x7d\x7d"]
  have hcut := layout_append_break page hbreak ([header] ++ [body] ++ [inverse])
    (["\x7b\x7b/", name, "\x7d\x7d"].map ofString)
  rw [hparts, hend] at hcut
  rw [Except.ok.inj (hwhole.symm.trans hcut), htrimmed]
  have hlines := String.intercalate_append_of_ne_nil (s := "\n") (l := first :: ls ++ ms)
    (m := ["\x7b\x7b/" ++ name ++ "\x7d\x7d"]) (by simp) (by simp)
  rw [hlines, String.intercalate_singleton]
  simp [String.join_cons, String.append_assoc]

end Document

end GlimmerFormat
