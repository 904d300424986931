/-!
# Segments

Laying out emits texts and newlines.  The spaces and tabs that stand at the end of a line are
dropped when the line ends; a text that loses all its characters is dropped with them.
-/

namespace GlimmerFormat

/-- A piece of laid-out text. -/
inductive Segment where
  /-- A text of the document. -/
  | text (s : String)
  /-- A break that stays on its line, with the text that stands for it there. -/
  | flatBreak (s : String)
  /-- A newline and the indentation behind it. -/
  | newline (indentation : String)
deriving DecidableEq

/-- Whether a character is dropped at the end of a line. -/
def isTrailing (c : Char) : Bool :=
  c == ' ' || c == '\t'

/-- A string without the spaces and tabs at its end. -/
def trimmed (s : String) : String :=
  String.ofList (s.toList.reverse.dropWhile isTrailing).reverse

namespace Segment

/-- The text of a segment. -/
def render : Segment → String
  | .text s => s
  | .flatBreak s => s
  | .newline indentation => "\n" ++ indentation

/-- The text of segments one after the other. -/
def joined (segments : List Segment) : String :=
  String.join (segments.map render)

/-- Whether a segment starts a line. -/
def isNewline : Segment → Bool
  | .newline _ => true
  | _ => false

/-- A segment without the spaces and tabs at its end. -/
def trim : Segment → Segment
  | .text s => .text (trimmed s)
  | .flatBreak s => .flatBreak (trimmed s)
  | .newline indentation => .newline (trimmed indentation)

/-- Segments, the last one first, without the spaces and tabs at their end.  A newline stays,
whatever becomes of its indentation. -/
def trimEnd : List Segment → List Segment
  | [] => []
  | s :: before => if s.trim.render = "" then trimEnd before else s.trim :: before

/-- Adds a segment to those before it, the last one first; a newline ends the line before. -/
def push (before : List Segment) (s : Segment) : List Segment :=
  if s.isNewline then s :: trimEnd before else s :: before

/-- Emitted segments with every line but the last trimmed. -/
def settle (segments : List Segment) : List Segment :=
  (segments.foldl push []).reverse

/-- No segments have the empty text. -/
@[simp] theorem joined_nil : joined [] = "" := rfl

/-- The text of the first segment comes first. -/
@[simp] theorem joined_cons (s : Segment) (segments : List Segment) :
    joined (s :: segments) = s.render ++ joined segments := by
  simp [joined, String.join_cons]

/-- The text of segments put together is their texts put together. -/
@[simp] theorem joined_append (xs ys : List Segment) :
    joined (xs ++ ys) = joined xs ++ joined ys := by
  induction xs with
  | nil => simp
  | cons x xs ih => simp [ih, String.append_assoc]

end Segment

end GlimmerFormat
