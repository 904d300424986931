import GlimmerFormat.Proofs.Document.Ink
import GlimmerFormat.Proofs.Text.Lines

/-!
# Plain documents

A document is plain if no text in it holds a newline character, nor does what stands for one of its
breaks.  The lines of its layouts are then the lines of their texts.

* `Document.IsPlain`: plain documents.
* `Document.isPlain_paragraph`: reflowing a text takes its newline characters out.
-/

namespace GlimmerFormat

/-- A word holds no newline character. -/
lemma Text.isOneLine_of_mem_words {cs w : List Char} (h : w ∈ words cs) :
    IsOneLine (String.ofList w) := by
  intro hmem
  rw [String.toList_ofList] at hmem
  have hchar : '\n' ∈ (words cs).flatten := List.mem_flatten.mpr ⟨w, h, hmem⟩
  rw [flatten_words] at hchar
  simpa using (List.mem_filter.mp hchar).2

namespace Document

/-- Whether a document, if it is a text or a break, is written on one line. -/
def Plain : Document → Prop
  | .text s => Text.IsOneLine s
  | .newline flat => Text.IsOneLine flat
  | _ => True

/-- A document whose texts hold no newline characters. -/
abbrev IsPlain : Document → Prop := Everywhere Plain

/-- A line is plain: when flat it is a space. -/
lemma isPlain_line : line.IsPlain := by
  simp [line, IsPlain, Everywhere, Plain, Text.IsOneLine]

/-- A softline is plain: when flat it is nothing. -/
lemma isPlain_softline : softline.IsPlain := Text.isOneLine_empty

/-- The words of a reflowed text hold no newline characters, whatever the text holds. -/
theorem isPlain_paragraph (s : String) : (paragraph s).IsPlain := by
  refine ⟨trivial, everywhereAll_iff.mpr ?_⟩
  intro d hd
  rcases eq_or_mem_of_mem_intersperse hd with rfl | hd
  · exact isPlain_line
  · obtain ⟨w, hw, rfl⟩ := List.mem_map.mp hd
    exact Text.isOneLine_of_mem_words hw

end Document

end GlimmerFormat
