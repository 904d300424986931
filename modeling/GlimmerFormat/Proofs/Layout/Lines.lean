import GlimmerFormat.Layout.Page
import Mathlib.Data.List.DropRight
import Mathlib.Tactic.Lemma

/-!
# Lines of a layout

The newline segments of a layout cut it into lines.  A line has an indentation and pieces behind
it, and its width is the width of the indentation and the number of characters of the pieces.

* `Line.ofSegments_settle`: settling a layout trims each of its lines but the last.
* `Line.text_trim`: trimming a line removes the spaces and tabs at its end, those of the
  indentation included if nothing else is left.
* `Line.width_trim_le`: trimming makes no line wider.
* `Line.intercalate_text`: the lines with newlines between them are the text of the layout.
-/

namespace GlimmerFormat

/-! ## The end of a text -/

/-- Trimming drops the spaces and tabs at the end of the characters. -/
lemma toList_trimmed (s : String) : (trimmed s).toList = s.toList.rdropWhile isTrailing := by
  simp [trimmed, List.rdropWhile]

/-- What is dropped at the end of a text that ends in others. -/
lemma rdropWhile_append {α : Type} (p : α → Bool) (xs ys : List α) :
    (xs ++ ys).rdropWhile p =
      if ys.rdropWhile p = [] then xs.rdropWhile p else xs ++ ys.rdropWhile p := by
  simp only [List.rdropWhile, List.reverse_append, List.dropWhile_append, List.isEmpty_iff,
    List.reverse_eq_nil_iff]
  split
  · rfl
  · simp

namespace Text

/-- The width of a text is no smaller than the width of what it starts with. -/
lemma columnsFrom_le_append (tabWidth : Int) (column : Nat) (xs ys : List Char) :
    columnsFrom tabWidth column xs ≤ columnsFrom tabWidth column (xs ++ ys) := by
  induction xs generalizing column with
  | nil => exact Nat.zero_le _
  | cons x xs ih =>
    simp only [List.cons_append, columnsFrom]
    split
    · exact Nat.add_le_add_left (ih _) _
    · split
      · exact Nat.add_le_add_left (ih _) _
      · exact Nat.add_le_add_left (ih _) _

/-- A trimmed text takes no more columns. -/
lemma columns_trimmed_le (tabWidth : Int) (s : String) :
    columns tabWidth (trimmed s) ≤ columns tabWidth s := by
  obtain ⟨ys, hys⟩ := List.rdropWhile_prefix isTrailing s.toList
  have h := columnsFrom_le_append tabWidth 0 (s.toList.rdropWhile isTrailing) ys
  rw [hys] at h
  simpa only [columns, toList_trimmed] using h

end Text

/-- A segment that starts a line is a newline with some indentation. -/
lemma Segment.exists_newline {s : Segment} (h : s.isNewline = true) :
    ∃ indentation, s = .newline indentation := by
  cases s with
  | text t => simp [isNewline] at h
  | flatBreak t => simp [isNewline] at h
  | newline indentation => exact ⟨indentation, rfl⟩

/-- A line of a layout: its indentation and the pieces behind it. -/
structure Line where
  indentation : String
  pieces : List Segment
deriving DecidableEq

namespace Line

/-- The line on which a layout starts. -/
def first : Line := ⟨"", []⟩

/-- The text of a line. -/
def text (l : Line) : String :=
  l.indentation ++ Segment.joined l.pieces

/-- The width of a line: its indentation and the number of characters behind it. -/
def width (tabWidth : Int) (l : Line) : Nat :=
  Text.columns tabWidth l.indentation + (Segment.joined l.pieces).length

/-- Whether some break of the document stays on the line. -/
def HasFlatBreak (l : Line) : Prop :=
  ∃ s, .flatBreak s ∈ l.pieces

/-- The line behind one more segment. -/
def next (l : Line) : Segment → Line
  | .newline indentation => ⟨indentation, []⟩
  | s => ⟨l.indentation, l.pieces ++ [s]⟩

/-- The line that is open behind segments. -/
def openLine (l : Line) (ss : List Segment) : Line :=
  ss.foldl next l

/-- The lines that segments end, the first of which is open before them. -/
def closedLines (l : Line) : List Segment → List Line
  | [] => []
  | s :: ss => (if s.isNewline then [l] else []) ++ closedLines (l.next s) ss

/-- The lines of a layout. -/
def ofSegments (ss : List Segment) : List Line :=
  closedLines first ss ++ [openLine first ss]

/-- A line without the spaces and tabs at its end. -/
def trim (l : Line) : Line :=
  match Segment.trimEnd l.pieces.reverse with
  | [] => ⟨trimmed l.indentation, []⟩
  | s :: before => ⟨l.indentation, (s :: before).reverse⟩

/-! ## Cutting -/

/-- Without segments the same line stays open. -/
@[simp] lemma openLine_nil (l : Line) : l.openLine [] = l := rfl

/-- The first segment goes onto the line before the others do. -/
@[simp] lemma openLine_cons (l : Line) (s : Segment) (ss : List Segment) :
    l.openLine (s :: ss) = (l.next s).openLine ss := rfl

/-- Without segments no line ends. -/
@[simp] lemma closedLines_nil (l : Line) : l.closedLines [] = [] := rfl

/-- A line ends where a newline is the next segment. -/
lemma closedLines_cons (l : Line) (s : Segment) (ss : List Segment) :
    l.closedLines (s :: ss) = (if s.isNewline then [l] else []) ++ (l.next s).closedLines ss := rfl

/-- The line open behind all segments is the one open behind the latter. -/
lemma openLine_append (l : Line) (xs ys : List Segment) :
    l.openLine (xs ++ ys) = (l.openLine xs).openLine ys :=
  List.foldl_append

/-- The lines that the former segments end come before those that the latter end. -/
lemma closedLines_append (l : Line) (xs ys : List Segment) :
    l.closedLines (xs ++ ys) = l.closedLines xs ++ (l.openLine xs).closedLines ys := by
  induction xs generalizing l with
  | nil => rfl
  | cons x xs ih => simp [closedLines_cons, ih]

/-- A segment that starts no line is one more piece of the line. -/
lemma next_of_not_isNewline (l : Line) {s : Segment} (h : s.isNewline = false) :
    l.next s = ⟨l.indentation, l.pieces ++ [s]⟩ := by
  cases s with
  | text t => rfl
  | flatBreak t => rfl
  | newline indentation => simp [Segment.isNewline] at h

/-- Segments without newlines end no line. -/
lemma closedLines_of_inline (l : Line) {ss : List Segment} (h : ∀ s ∈ ss, s.isNewline = false) :
    l.closedLines ss = [] := by
  induction ss generalizing l with
  | nil => rfl
  | cons s ss ih =>
    have hss := ih (l.next s) fun t ht => h t (by simp [ht])
    simp [closedLines_cons, h s (by simp), hss]

/-- Segments that end no line hold no newlines. -/
lemma inline_of_closedLines_eq_nil (l : Line) {ss : List Segment} (h : l.closedLines ss = []) :
    ∀ s ∈ ss, s.isNewline = false := by
  induction ss generalizing l with
  | nil => simp
  | cons s ss ih =>
    obtain ⟨hs, hss⟩ := List.append_eq_nil_iff.mp h
    exact List.forall_mem_cons.mpr ⟨by simpa using hs, ih (l.next s) hss⟩

/-- Segments without newlines stand at the end of the open line. -/
lemma openLine_of_inline (l : Line) {ss : List Segment} (h : ∀ s ∈ ss, s.isNewline = false) :
    l.openLine ss = ⟨l.indentation, l.pieces ++ ss⟩ := by
  induction ss generalizing l with
  | nil => simp
  | cons s ss ih =>
    have hss := ih (l.next s) fun t ht => h t (by simp [ht])
    rw [openLine_cons, hss, next_of_not_isNewline l (h s (by simp))]
    simp

/-- The lines of a layout, with newlines between them, are its text. -/
theorem intercalate_text (l : Line) (ss : List Segment) :
    "\n".intercalate ((l.closedLines ss ++ [l.openLine ss]).map text) =
      l.text ++ Segment.joined ss := by
  induction ss generalizing l with
  | nil => simp
  | cons s ss ih =>
    have hss := ih (l.next s)
    cases s with
    | text t | flatBreak t =>
      simp only [closedLines_cons, Segment.isNewline, openLine_cons, Bool.false_eq_true, if_false,
        List.nil_append]
      rw [hss]
      simp [next, text, Segment.render, String.append_assoc]
    | newline indentation =>
      simp only [closedLines_cons, Segment.isNewline, openLine_cons, if_true, List.cons_append,
        List.nil_append, List.map_cons]
      rw [String.intercalate_cons_of_ne_nil (by simp), hss]
      simp [next, text, Segment.render, String.append_assoc]

/-! ## Trimming -/

/-- A newline has a text, whatever its indentation is. -/
lemma render_newline_ne_empty (indentation : String) :
    (Segment.newline indentation).render ≠ "" := by
  simp [Segment.render]

/-- Trimming a segment that starts no line trims its text. -/
lemma render_trim {s : Segment} (h : s.isNewline = false) : s.trim.render = trimmed s.render := by
  cases s with
  | text t => rfl
  | flatBreak t => rfl
  | newline indentation => simp [Segment.isNewline] at h

/-- A trimmed segment starts a line exactly if it did before. -/
lemma isNewline_trim (s : Segment) : s.trim.isNewline = s.isNewline := by
  cases s <;> rfl

/-- The open line behind segments whose end is trimmed is trimmed itself, and the lines before
it are left alone. -/
lemma lines_trimEnd (before : List Segment) :
    closedLines first (Segment.trimEnd before).reverse = closedLines first before.reverse ∧
      openLine first (Segment.trimEnd before).reverse = (openLine first before.reverse).trim := by
  induction before with
  | nil => exact ⟨rfl, rfl⟩
  | cons s before ih =>
    rw [Segment.trimEnd, List.reverse_cons, closedLines_append, openLine_append]
    cases hs : s.isNewline with
    | true =>
      obtain ⟨indentation, rfl⟩ := Segment.exists_newline hs
      have hne : (Segment.newline indentation).trim.render ≠ "" := render_newline_ne_empty _
      rw [if_neg hne, List.reverse_cons, closedLines_append, openLine_append]
      exact ⟨rfl, rfl⟩
    | false =>
      have hnext := next_of_not_isNewline (openLine first before.reverse) hs
      by_cases hempty : s.trim.render = ""
      · rw [if_pos hempty]
        refine ⟨?_, ?_⟩
        · simp [closedLines_cons, hs, ih.1]
        · simp [hnext, ih.2, trim, Segment.trimEnd, hempty]
      · have hs' : s.trim.isNewline = false := by rw [isNewline_trim, hs]
        rw [if_neg hempty, List.reverse_cons, closedLines_append, openLine_append]
        refine ⟨?_, ?_⟩
        · simp [closedLines_cons, hs, hs']
        · simp [hnext, next_of_not_isNewline _ hs', trim, Segment.trimEnd, hempty]

/-- What pushing segments behind settled ones makes of the lines. -/
lemma lines_foldl_push (before ss : List Segment) :
    closedLines first (ss.foldl Segment.push before).reverse =
        closedLines first before.reverse ++
          ((openLine first before.reverse).closedLines ss).map trim ∧
      openLine first (ss.foldl Segment.push before).reverse =
        (openLine first before.reverse).openLine ss := by
  induction ss generalizing before with
  | nil => simp
  | cons s ss ih =>
    obtain ⟨hclosed, hopen⟩ := ih (Segment.push before s)
    rw [List.foldl_cons, hclosed, hopen, Segment.push]
    obtain ⟨htrimmed, htrim⟩ := lines_trimEnd before
    cases hs : s.isNewline with
    | true =>
      obtain ⟨indentation, rfl⟩ := Segment.exists_newline hs
      simp [closedLines_append, openLine_append, closedLines_cons, hs, htrimmed, htrim, next]
    | false =>
      simp [closedLines_append, openLine_append, closedLines_cons, hs]

/-- Settling a layout trims each of its lines but the last. -/
theorem ofSegments_settle (ss : List Segment) :
    ofSegments (Segment.settle ss) = (closedLines first ss).map trim ++ [openLine first ss] := by
  obtain ⟨hclosed, hopen⟩ := lines_foldl_push [] ss
  rw [ofSegments, Segment.settle, hclosed, hopen]
  simp

example : ofSegments (Segment.settle [.text "a ", .newline "  ", .text "b", .flatBreak " "]) =
    [⟨"", [.text "a"]⟩, ⟨"  ", [.text "b", .flatBreak " "]⟩] := by decide

/-- The text of segments whose end is trimmed. -/
lemma toList_joined_trimEnd {before : List Segment} (h : ∀ s ∈ before, s.isNewline = false) :
    (Segment.joined (Segment.trimEnd before).reverse).toList =
      (Segment.joined before.reverse).toList.rdropWhile isTrailing := by
  induction before with
  | nil => simp [Segment.trimEnd]
  | cons s before ih =>
    have hs := render_trim (h s (by simp))
    have hbefore := ih fun t ht => h t (by simp [ht])
    have hempty : s.trim.render = "" ↔ s.render.toList.rdropWhile isTrailing = [] := by
      rw [hs, ← toList_trimmed, String.toList_eq_nil_iff]
    simp only [Segment.trimEnd, List.reverse_cons, Segment.joined_append, Segment.joined_cons,
      Segment.joined_nil, String.append_empty, String.toList_append, rdropWhile_append]
    by_cases hr : s.trim.render = ""
    · rw [if_pos hr, if_pos (hempty.mp hr), hbefore]
    · rw [if_neg hr, if_neg (fun hn => hr (hempty.mpr hn))]
      simp [hs, toList_trimmed]

/-- What is left of segments at their end when they are trimmed is not empty. -/
lemma render_ne_empty_of_trimEnd {before rest : List Segment} {s : Segment}
    (h : Segment.trimEnd before = s :: rest) : s.render ≠ "" := by
  induction before with
  | nil => simp [Segment.trimEnd] at h
  | cons t before ih =>
    rw [Segment.trimEnd] at h
    by_cases ht : t.trim.render = ""
    · rw [if_pos ht] at h
      exact ih h
    · rw [if_neg ht] at h
      obtain ⟨rfl, -⟩ := List.cons.inj h
      exact ht

/-- A line whose pieces hold no newline. -/
def IsInline (l : Line) : Prop :=
  ∀ s ∈ l.pieces, s.isNewline = false

/-- No newline comes among the pieces of a line. -/
lemma isInline_next {l : Line} (h : l.IsInline) (s : Segment) : (l.next s).IsInline := by
  intro t ht
  cases s with
  | newline indentation => simp [next] at ht
  | text u | flatBreak u =>
    rcases List.mem_append.mp ht with ht | ht
    · exact h t ht
    · obtain rfl := List.mem_singleton.mp ht
      rfl

/-- The lines that segments end hold no newlines. -/
lemma isInline_of_mem_closedLines {l : Line} (h : l.IsInline) {ss : List Segment} {k : Line}
    (hk : k ∈ l.closedLines ss) : k.IsInline := by
  induction ss generalizing l with
  | nil => simp at hk
  | cons s ss ih =>
    rcases List.mem_append.mp hk with hk | hk
    · cases hs : s.isNewline with
      | true =>
        obtain rfl : k = l := by simpa [hs] using hk
        exact h
      | false => simp [hs] at hk
    · exact ih (isInline_next h s) hk

/-- Trimming a line removes the spaces and tabs at its end. -/
theorem text_trim {l : Line} (h : l.IsInline) : l.trim.text = trimmed l.text := by
  have hpieces : (Segment.joined (Segment.trimEnd l.pieces.reverse).reverse).toList =
      (Segment.joined l.pieces).toList.rdropWhile isTrailing := by
    have := @toList_joined_trimEnd l.pieces.reverse fun s hs => h s (by simpa using hs)
    simpa using this
  apply String.toList_injective
  rw [toList_trimmed, text, text, String.toList_append, String.toList_append, rdropWhile_append,
    ← hpieces]
  unfold trim
  cases htrim : Segment.trimEnd l.pieces.reverse with
  | nil => simp [toList_trimmed]
  | cons s before =>
    have hs := render_ne_empty_of_trimEnd htrim
    rw [if_neg]
    simp [hs]

/-- Trimming makes no line wider. -/
theorem width_trim_le (tabWidth : Int) {l : Line} (h : l.IsInline) :
    l.trim.width tabWidth ≤ l.width tabWidth := by
  have hpieces : (Segment.joined (Segment.trimEnd l.pieces.reverse).reverse).length ≤
      (Segment.joined l.pieces).length := by
    have := @toList_joined_trimEnd l.pieces.reverse fun s hs => h s (by simpa using hs)
    rw [List.reverse_reverse] at this
    rw [← String.length_toList, ← String.length_toList, this]
    exact (List.rdropWhile_prefix _ _).length_le
  unfold trim
  cases htrim : Segment.trimEnd l.pieces.reverse with
  | nil =>
    have := Text.columns_trimmed_le tabWidth l.indentation
    simp only [width, Segment.joined_nil, String.length_empty]
    omega
  | cons s before =>
    rw [htrim] at hpieces
    simp only [width]
    omega

end Line

end GlimmerFormat
