import GlimmerFormat.Proofs.Format.Statements
import GlimmerFormat.Proofs.Printing.Attributes

/-!
# Elements and their attributes

The text of an element without content is known in full if the values of its attributes are plain
texts.  Two widths decide on it, that of the whole element on one line and that of its start tag on
one line; what does not fit is written below each other, however wide it is then.

* `Node.elementOf`: an element with such attributes.
* `Node.format_elementOf`: its text, for all attributes and all settings.
-/

namespace GlimmerFormat

open Document (ofString)

/-! ## Attributes -/

namespace Markup

/-- An attribute with a text as its value, as it is written. -/
def writtenAttribute (a : String × String) : String :=
  a.1 ++ "=\"" ++ a.2 ++ "\""

/-- An attribute with a text as its value, as it is printed. -/
def textAttribute (a : String × String) : Document :=
  attr (ofString a.1) true (ofString a.2)

/-- The document of an attribute has the text that is written for it. -/
lemma flatText_textAttribute (a : String × String) :
    (textAttribute a).flatText = writtenAttribute a := by
  have hmarks : ∀ s : String, "=" ++ ("\"" ++ s) = "=\"" ++ s :=
    fun s => (String.append_assoc ..).symm
  simp [textAttribute, attr, quote, Document.flatText, Document.joined_flatPieces_ofString,
    Document.flatPieces, Segment.render, writtenAttribute, String.append_assoc, hmarks]

/-- An attribute ends with a quote, so it ends firm. -/
lemma isWord_textAttribute (a : String × String) : (textAttribute a).IsWord where
  soft := by
    have hstring : ∀ s, (ofString s).IsSoft :=
      fun s => Document.everywhere_ofString trivial trivial
    have hquote : quote.IsSoft := trivial
    exact (Document.everywhere_ofList trivial fun _ => trivial).mpr (by simp [hstring, hquote])
  rigid := by
    have hstring : ∀ s, (ofString s).IsRigid :=
      fun s => Document.everywhere_ofString trivial trivial
    have hquote : quote.IsRigid := trivial
    exact (Document.everywhere_ofList trivial fun _ => trivial).mpr (by simp [hstring, hquote])
  spread_eq unit indentation := by
    simp [textAttribute, attr, quote, Document.spread_ofString, Document.spread,
      Document.flatPieces]
  firm := by
    rw [flatText_textAttribute, writtenAttribute, Text.endsFirm_append, if_neg (by decide)]
    rfl

end Markup

namespace Node

open Markup (flatTag tallTag writtenAttribute)

/-- An attribute with a text as its value. -/
def textAttribute (a : String × String) : Node :=
  .attr (.str a.1) (.node (.text (.str a.2)))

/-- An element with attributes whose values are texts, without modifiers and without children. -/
def elementOf (tag : String) (attributes : List (String × String)) (names : List String) : Node :=
  .element (.str tag) (.list ((attributes.map textAttribute).map .node)) (.list []) (.list [])
    (.list (names.map .str))

/-- An element with texts as attributes may stand in the body of a program. -/
lemma isStatement_elementOf (tag : String) (attributes : List (String × String))
    (names : List String) : (elementOf tag attributes names).IsStatement := by
  have hattributes : ∀ n ∈ attributes.map textAttribute, n.kind = .attr ∧ n.WellTyped := by
    intro n hn
    obtain ⟨a, -, rfl⟩ := List.mem_map.mp hn
    exact ⟨rfl, .attr _ rfl (.text _)⟩
  have hwell : WellTyped (.element (.str tag) (.list ((attributes.map textAttribute).map .node))
      (.list ([].map .node)) (.list ([].map .node)) (.list (names.map .str))) :=
    .element tag (fun n hn => (hattributes n hn).1) (fun n hn => (hattributes n hn).2) (by simp)
      (by simp) (by simp) (by simp) names
  exact ⟨hwell, rfl⟩

/-- The element is printed with its attributes as words. -/
lemma markup_elementOf (style : Markup.QuoteStyle) (tag : String)
    {attributes : List (String × String)} (h : attributes ≠ []) (names : List String) :
    ((elementOf tag attributes names).markup style).document =
      Markup.element
        (Markup.startTag tag (Markup.attributes (attributes.map Markup.textAttribute)) .empty
          (Value.voidElements.contains tag))
        .empty (if Value.voidElements.contains tag then .empty else Markup.endTag tag) := by
  obtain ⟨first, others, rfl⟩ := List.exists_cons_of_ne_nil h
  have hdocs : Value.markupAll style (((first :: others).map textAttribute).map .node) =
      (first :: others).map Markup.textAttribute := by
    rw [markupAll_map_node]
    simp only [List.map_map]
    rfl
  have hcloses : Value.closesItself tag (.list []) = Value.voidElements.contains tag :=
    Bool.and_true _
  rw [elementOf, markup, Part.document_doc, elementMarkup, Value.string, Value.markupItems, hdocs,
    hcloses]
  rfl

/-- The text of an element whose attributes have texts as values and which has no modifiers and no
children.  An element with an end tag has it all on one line if this is no longer than the page is
wide; otherwise the end tag goes to a line of its own, and the attributes stay on their line if the
start tag is no longer than the page is wide.  An element that closes itself has its attributes on
one line if the tag is no longer than that.  Attributes on lines of their own are aligned under the
first with spaces, whatever the settings say about indentation. -/
theorem format_elementOf (s : Settings) (tag : String) {attributes : List (String × String)}
    (h : attributes ≠ []) (names names' : List String) :
    let flat := flatTag tag (attributes.map writtenAttribute)
    let tall := tallTag tag (attributes.map writtenAttribute)
    ((programOf [elementOf tag attributes names] names').format s).outcome = .ok
      (if tag ∈ Value.voidElements then
        if ((flat ++ " />").length : Int) ≤ s.printWidth then flat ++ " />" else tall ++ " />"
      else
        if ((flat ++ "></" ++ tag ++ ">").length : Int) ≤ s.printWidth
        then flat ++ "></" ++ tag ++ ">"
        else if ((flat ++ ">").length : Int) ≤ s.printWidth then flat ++ ">\n</" ++ tag ++ ">"
        else tall ++ ">\n</" ++ tag ++ ">") := by
  intro flat tall
  have hwords : ∀ d ∈ attributes.map Markup.textAttribute, d.IsWord := by
    intro d hd
    obtain ⟨a, -, rfl⟩ := List.mem_map.mp hd
    exact Markup.isWord_textAttribute a
  have htexts : (attributes.map Markup.textAttribute).map Document.flatText =
      attributes.map writtenAttribute := by
    rw [List.map_map]
    exact List.map_congr_left fun a _ => Markup.flatText_textAttribute a
  have hstatement := isStatement_elementOf tag attributes names
  have hmarkup : Value.markupBody s.style false ([elementOf tag attributes names].map .node) =
      [((elementOf tag attributes names).markup s.style).document] := rfl
  rw [outcome_format_programOf s (List.forall_mem_singleton.mpr hstatement), hmarkup,
    Document.layout_concat_singleton, markup_elementOf s.style tag h]
  by_cases htag : tag ∈ Value.voidElements
  · have hvoid : Value.voidElements.contains tag = true := by simpa using htag
    rw [hvoid, if_pos rfl, if_pos htag, Markup.layout_element_void hwords,
      Markup.layout_startTag hwords, htexts]
    rfl
  · have hvoid : Value.voidElements.contains tag = false := by simpa using htag
    rw [hvoid, if_neg (by simp), if_neg htag, Markup.layout_element hwords, htexts]
    rfl

/-- A start tag of twenty-one characters, on pages where the element fits, where the start tag fits
and where neither does, and a tag that closes itself. -/
theorem format_elementOf_sample :
    let attributes : List (String × String) := [("href", "x"), ("id", "y z")]
    attributes ≠ [] ∧
      ((programOf [elementOf "a" attributes []] []).format { printWidth := 25 }).outcome =
        .ok "<a href=\"x\" id=\"y z\"></a>" ∧
      ((programOf [elementOf "a" attributes []] []).format { printWidth := 21 }).outcome =
        .ok "<a href=\"x\" id=\"y z\">\n</a>" ∧
      ((programOf [elementOf "a" attributes []] []).format { printWidth := 20 }).outcome =
        .ok "<a href=\"x\"\n   id=\"y z\">\n</a>" ∧
      ((programOf [elementOf "br" attributes []] []).format { printWidth := 23 }).outcome =
        .ok "<br href=\"x\"\n    id=\"y z\" />" := by
  intro attributes
  have h : attributes ≠ [] := by decide
  exact ⟨h, (format_elementOf { printWidth := 25 } "a" h [] []).trans (by decide),
    (format_elementOf { printWidth := 21 } "a" h [] []).trans (by decide),
    (format_elementOf { printWidth := 20 } "a" h [] []).trans (by decide),
    (format_elementOf { printWidth := 23 } "br" h [] []).trans (by decide)⟩

end Node

end GlimmerFormat
