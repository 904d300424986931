import GlimmerFormat.Document.Builder
import GlimmerFormat.Text.Words

/-!
# Reflowing text

Free text becomes a fill of its words, so that a line may break between any two words and
nowhere else.
-/

namespace GlimmerFormat.Document

/-- The words of a text as contents of a fill, in order. -/
def wordTexts (s : String) : List Document :=
  (Text.words s.toList).map fun w => .text (String.ofList w)

/-- A fill of the words of a text; a blank text gives the empty fill. -/
def paragraph (s : String) : Document :=
  .fill ((wordTexts s).intersperse line)

/-- A text has no words exactly if it is blank. -/
theorem wordTexts_eq_nil_iff (s : String) : wordTexts s = [] ↔ Text.isBlankText s = true := by
  simp [wordTexts, Text.isBlankText, Text.words_eq_nil_iff]

end GlimmerFormat.Document
