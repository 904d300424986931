import GlimmerFormat.Proofs.Document.Normal
import GlimmerFormat.Proofs.Document.Words
import GlimmerFormat.Proofs.Format.Outcomes
import GlimmerFormat.Proofs.Printing.Kept

/-!
# Templates as normal documents

What a template is printed as is built of strings and breaks alone, so it is a normal document, in
which nothing could be left out or put together.  Of all documents it takes a few: its breaks are
nothing or a space when flat, no choice is left to a group, and its fills hold words apart.

* `Document.IsPrinted`: the documents that printing takes.
* `Node.normal_toDocument`: the builders keep documents normal, concatenation of normal documents is
  associative, and well-typed trees are printed as normal documents.
-/

namespace GlimmerFormat

namespace Document

/-- Whether a document, apart from what is inside the documents in it, is one that printing
takes. -/
def Printed : Document → Prop
  | .newline flat => flat = "" ∨ flat = " "
  | .fill parts => ∃ ws : List (List Char), (∀ w ∈ ws, Text.IsWord w) ∧
      Alternates (ws.map fun w => .text (String.ofList w)) parts
  | .ifBreak _ _ | .stray _ => False
  | _ => True

/-- A document of texts, fills of words, and breaks that are nothing or a space when flat. -/
abbrev IsPrinted : Document → Prop := Everywhere Printed

/-- Printing takes lines: flat they are a space. -/
lemma isPrinted_line : line.IsPrinted := .inr rfl

/-- Printing takes softlines: flat they are nothing. -/
lemma isPrinted_softline : softline.IsPrinted := .inl rfl

/-- Printing takes paragraphs, which are fills of words. -/
lemma isPrinted_paragraph (s : String) : (paragraph s).IsPrinted := by
  refine ⟨⟨Text.words s.toList, fun w hw => Text.isWord_of_mem_words hw,
    alternates_intersperse (wordTexts s)⟩, everywhereAll_iff.mpr fun d hd => ?_⟩
  rcases eq_or_mem_of_mem_intersperse hd with rfl | hd
  · exact isPrinted_line
  · obtain ⟨w, -, rfl⟩ := List.mem_map.mp hd
    exact trivial

/-- The builders make printed documents of printed ones. -/
lemma keptByBuilders_isPrinted : KeptByBuilders (fun _ => True) IsPrinted :=
  keptByBuilders_everywhere trivial (fun _ => trivial) (fun _ => trivial) (fun _ => trivial)
    (fun _ _ => trivial) trivial (fun _ _ => trivial) isPrinted_line isPrinted_softline
    isPrinted_paragraph

/-- The builders make normal documents of normal ones. -/
lemma keptByBuilders_isNormal : KeptByBuilders (fun _ => True) IsNormal where
  string _ := isNormal_ofString _
  line := trivial
  softline := trivial
  hardline := trivial
  paragraph := isNormal_paragraph
  ofList := isNormal_ofList
  grouped := isNormal_grouped
  indented := isNormal_indented
  aligned := isNormal_aligned _

/-- Nothing is the unit of concatenation. -/
lemma IsNormal.ofList_empty {d : Document} (h : d.IsNormal) :
    ofList [.empty, d] = d ∧ ofList [d, .empty] = d := by
  constructor
  · rw [ofList_cons_empty, h.ofList_singleton]
  · calc ofList [d, .empty] = ofList [d] := ofList_congr (by simp)
      _ = d := h.ofList_singleton

end Document

open Document (ofList)

/-- A property of documents that the builders keep, whatever strings they are given, holds of what
a well-typed tree is printed as. -/
lemma Node.toDocument_kept {p : Document → Prop} (hp : Document.KeptByBuilders (fun _ => True) p)
    {n : Node} (hn : n.WellTyped) (style : Markup.QuoteStyle) :
    p (ofList [(n.markup style).document]) :=
  hp.ofList (List.forall_mem_singleton.mpr (markup_kept hp
    ⟨fun _ _ => trivial, fun _ => trivial, fun _ _ => trivial⟩ hn fun _ _ => trivial))

/-- The builders return normal documents when they are given normal documents and strings;
concatenation of normal documents is associative, with nothing as its unit; and a well-typed tree is
printed, whatever the settings, as a normal document without choices and strays, whose breaks are
nothing or a space when flat and whose fills are words held apart by `line`. -/
theorem Node.normal_toDocument :
    Document.ClosedUnderBuilders Document.IsNormal ∧
    (∀ a b c : Document, a.IsNormal → b.IsNormal → c.IsNormal →
      ofList [ofList [a, b], c] = ofList [a, ofList [b, c]] ∧
      ofList [.empty, a] = a ∧ ofList [a, .empty] = a) ∧
    ∀ (s : Settings) (n : Node), n.WellTyped →
      ∃ d, (n.toDocument s).outcome = .ok d ∧ d.IsNormal ∧ d.IsPrinted := by
  refine ⟨Document.closedUnderBuilders_isNormal, fun a b c ha hb hc => ?_, fun s n hn => ?_⟩
  · exact ⟨Document.ofList_assoc ha.isSpliced hb.isSpliced hc.isSpliced, ha.ofList_empty⟩
  · exact ⟨_, outcome_toDocument hn, toDocument_kept Document.keptByBuilders_isNormal hn s.style,
      toDocument_kept Document.keptByBuilders_isPrinted hn s.style⟩

/-- Three documents that are put together, and the sample on a narrow page. -/
theorem Node.normal_toDocument_sample :
    ofList [ofList ["a", Document.line], ofList ["b", "c"]] =
      ofList ["a", ofList [Document.line, ofList ["b", "c"]]] ∧
    ∃ d, (sample.toDocument { printWidth := 12 }).outcome = .ok d ∧ d.IsNormal ∧ d.IsPrinted := by
  obtain ⟨hclosed, hconcat, hprinted⟩ := normal_toDocument
  have hpair : (ofList ([Part.str "b", Part.str "c"].map Part.document)).IsNormal :=
    hclosed.concatenated (by simp [Document.OfGiven])
  refine ⟨(hconcat "a" Document.line _ ?_ trivial hpair).1, hprinted _ _ wellTyped_sample⟩
  exact Document.isNormal_ofString "a"

end GlimmerFormat
