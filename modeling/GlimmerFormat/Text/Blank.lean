/-!
# Blank characters

Free text is made of words that blanks hold apart.  This file fixes the class of
blanks; the same class decides what a word is and which texts hold no word at all.
-/

namespace GlimmerFormat.Text

/-- The Unicode characters that count as blank: the controls that move the carriage or
separate records, the spaces of every width, and the line and paragraph separators. -/
def isBlank (c : Char) : Bool :=
  let n := c.toNat
  (0x09 ≤ n && n ≤ 0x0d) || (0x1c ≤ n && n ≤ 0x20) || n == 0x85 || n == 0xa0 || n == 0x1680 ||
    (0x2000 ≤ n && n ≤ 0x200a) || n == 0x2028 || n == 0x2029 || n == 0x202f || n == 0x205f ||
    n == 0x3000

/-- A text is blank when it holds no other character; the empty text is blank. -/
def isBlankText (s : String) : Bool :=
  s.toList.all isBlank

/-- A space is blank. -/
@[simp] theorem isBlank_space : isBlank ' ' = true := rfl

/-- A tab is blank. -/
@[simp] theorem isBlank_tab : isBlank '\t' = true := rfl

/-- A newline character is blank. -/
@[simp] theorem isBlank_newline : isBlank '\n' = true := rfl

end GlimmerFormat.Text
