import GlimmerFormat.Proofs.Layout.Fitting
import GlimmerFormat.Proofs.Printing.Statements
import GlimmerFormat.Proofs.Text.Wrapping

/-!
# Reflowed text

The fill of the words of a text measures each word together with the word before it, from the start
of that word on.  What comes out is the text of the words wrapped at the width of the page: each
word goes on its line if it fits there behind a space.

* `Page.exists_pairModes_words`: the space between two words stays if both fit with it.
* `Document.exists_layFill_words`: from a line on that holds some words already, the lines of a fill
  of words are the lines of wrapped words.
* `Document.layout_paragraph`: the layout of a reflowed text is the wrapped text.
-/

namespace GlimmerFormat

/-! ## Two words -/

/-- Two words with a space between them fit in some room if they are no wider than it. -/
lemma Pending.allFit_words (w v : String) (room : Int) :
    allFit [⟨.flat, .concat [.text w, Document.line, .text v]⟩] room =
      .ok (decide ((w.length + 1 + v.length : Nat) ≤ room)) := by
  by_cases hroom : 0 ≤ room
  · have hproper : AllProper [⟨.flat, .concat [.text w, Document.line, .text v]⟩] := by
      simp [AllProper, Document.Everywhere, Document.EverywhereAll, Document.NotStray,
        Document.line]
    have hspace : " ".length = 1 := rfl
    rw [allFit_eq_decide hproper hroom]
    simp [Item.FitIn, items, Document.items, Document.itemsAll, Document.line, hspace,
      Nat.add_assoc]
  · have hneg : room < 0 := by omega
    have hwide : ¬ ((w.length + 1 + v.length : Nat) : Int) ≤ room := by omega
    rw [allFit_cons, Document.spend_flat_of_neg (by simp) hneg, decide_eq_false hwide]
    rfl

/-- Between two words a line goes on exactly if both words fit from the column of the first on. -/
lemma Page.exists_pairModes_words (page : Page) (w v : String) (column : Nat) :
    ∃ content, page.pairModes (.text w) Document.line (.text v) column =
      ⟨[], .ok (content,
        if (column + w.length + 1 + v.length : Int) ≤ page.width then .flat else .broken)⟩ := by
  have hproper : (Document.text w).IsProper := trivial
  obtain ⟨contentFits, hcontent⟩ := page.exists_allFit_singleton hproper column
  have hpair := Pending.allFit_words w v (page.width - column)
  by_cases hfits : (column + w.length + 1 + v.length : Int) ≤ page.width
  · have hroom : ((w.length + 1 + v.length : Nat) : Int) ≤ page.width - column := by omega
    rw [decide_eq_true hroom] at hpair
    rw [if_pos hfits]
    exact ⟨.flat, pairModes_eq_ok.mpr ⟨rfl, contentFits, true, hcontent, hpair, rfl⟩⟩
  · have hroom : ¬ ((w.length + 1 + v.length : Nat) : Int) ≤ page.width - column := by omega
    rw [decide_eq_false hroom] at hpair
    rw [if_neg hfits]
    refine ⟨if contentFits then .flat else .broken, pairModes_eq_ok.mpr
      ⟨rfl, contentFits, false, hcontent, hpair, ?_⟩⟩
    cases contentFits <;> rfl

/-! ## A line of words -/

namespace Line

/-- A line of words with a space behind each. -/
def ofWords (words : List String) : Line :=
  ⟨"", words.flatMap fun w => [.text w, .flatBreak " "]⟩

/-- A line of words holds no newline. -/
lemma isInline_ofWords (words : List String) : (ofWords words).IsInline := by
  intro s hs
  obtain ⟨w, -, hs⟩ := List.mem_flatMap.mp hs
  rcases List.mem_pair.mp hs with rfl | rfl <;> rfl

/-- A word behind a line of words makes the line of all of them. -/
lemma text_ofWords_append (words : List String) (w : String) :
    (ofWords words).text ++ w = Text.lineText (words ++ [w]) := by
  induction words with
  | nil => simp [ofWords, text]
  | cons v words ih =>
    have htext : (ofWords (v :: words)).text = v ++ " " ++ (ofWords words).text := by
      simp [ofWords, text, Segment.render, String.append_assoc]
    rw [htext, String.append_assoc, ih, Text.lineText, Text.lineText, List.cons_append,
      String.intercalate_cons_of_ne_nil (by simp)]

/-- A word behind words with spaces between them. -/
lemma text_ofWords_next (words : List String) (w : String) :
    ((ofWords words).next (.text w)).text = Text.lineText (words ++ [w]) := by
  rw [← text_ofWords_append]
  simp [next, text, Segment.render, String.append_assoc]

/-- A word and a space behind a line of words make one such line. -/
lemma ofWords_next_next (words : List String) (w : String) :
    ((ofWords words).next (.text w)).next (.flatBreak " ") = ofWords (words ++ [w]) := by
  simp [next, ofWords]

/-- A line that ends behind a word loses nothing. -/
lemma text_trim_ofWords_next (words : List String) {w : String} (hw : Text.endsFirm w = true) :
    ((ofWords words).next (.text w)).trim.text = Text.lineText (words ++ [w]) := by
  have hne : w ≠ "" := by
    rintro rfl
    simp at hw
  have hfirm : Text.endsFirm ((ofWords words).text ++ w) = true := by
    rw [Text.endsFirm_append, if_neg hne, hw]
  rw [text_trim (isInline_next (isInline_ofWords words) _), text_ofWords_next,
    ← text_ofWords_append, Text.trimmed_of_endsFirm hfirm]

end Line

/-! ## A fill of words -/

/-- The words of a text, in order. -/
def Text.wordsOf (s : String) : List String :=
  (words s.toList).map String.ofList

namespace Document

/-- The contents of a paragraph are texts of the words. -/
lemma wordTexts_eq_map (s : String) : wordTexts s = (Text.wordsOf s).map text := by
  rw [wordTexts, Text.wordsOf, List.map_map]
  rfl

/-- Words with spaces between them start with the first word. -/
lemma exists_intersperse_words (w : String) (ws : List String) :
    ∃ parts, ((w :: ws).map text).intersperse line = text w :: parts := by
  cases ws with
  | nil => exact ⟨[], rfl⟩
  | cons v ws => exact ⟨_, rfl⟩

/-- From a line on that holds some words already, a fill of words is laid out as the lines of
wrapped words. -/
lemma exists_layFill_words (page : Page) (words : List String) {w : String} {ws : List String}
    (hfirm : ∀ v ∈ w :: ws, Text.endsFirm v = true) (mode : Mode) :
    ∃ log column, layFill page "" mode (((w :: ws).map text).intersperse line) []
        (Line.ofWords words).text.length = ⟨log, .ok column⟩ ∧
      ((Line.ofWords words).closedLines (LayoutEvent.segments log)).map (fun l => l.trim.text) ++
          [((Line.ofWords words).openLine (LayoutEvent.segments log)).text] =
        (Text.fillLines page.width (words ++ [w]) ws).map Text.lineText := by
  induction ws generalizing words w with
  | nil =>
    have hproper : (text w).IsProper := trivial
    obtain ⟨last, hlast⟩ := page.exists_lastMode hproper (Line.ofWords words).text.length
    refine ⟨_, _, layFill_last_eq_ok.mpr ⟨last, hlast, rfl⟩, ?_⟩
    simp [Line.closedLines_cons, Segment.isNewline, Line.text_ofWords_next, Text.fillLines]
  | cons v ws ih =>
    obtain ⟨content, hmodes⟩ :=
      page.exists_pairModes_words w v (Line.ofWords words).text.length
    obtain ⟨parts, hparts⟩ := exists_intersperse_words v ws
    have hall : ((w :: v :: ws).map text).intersperse line = text w :: line :: text v :: parts := by
      rw [← hparts]
      rfl
    have hlength : (Line.ofWords words).text.length + w.length =
        (Text.lineText (words ++ [w])).length := by
      rw [← Line.text_ofWords_append, String.length_append]
    have hbehind : ∀ u ∈ v :: ws, Text.endsFirm u = true := fun u hu => hfirm u (by simp [hu])
    rw [hall, Text.fillLines]
    rw [← Int.natCast_add, hlength] at hmodes
    by_cases hfits : ((Text.lineText (words ++ [w])).length + 1 + v.length : Int) ≤ page.width
    · -- The next word goes on the line behind a space.
      have hcolumn : (Line.ofWords (words ++ [w])).text.length =
          (Line.ofWords words).text.length + w.length + " ".length := by
        rw [hlength, ← String.length_append, ← Line.ofWords_next_next, ← Line.text_ofWords_next]
        simp [Line.next, Line.text, Segment.render, String.append_assoc]
      obtain ⟨log, column, hlay, hlines⟩ := ih (words ++ [w]) hbehind
      rw [hparts, hcolumn] at hlay
      rw [if_pos hfits] at hmodes
      refine ⟨_, _, layFill_pair_eq_ok.mpr ⟨_, _, _, _, _, _, hmodes, rfl, rfl, hlay, rfl⟩, ?_⟩
      rw [if_pos hfits, ← hlines]
      simp [Line.closedLines_cons, Segment.isNewline, Line.ofWords_next_next]
    · -- The line ends, and the next word opens another.
      have hfirst : ((Line.ofWords words).next (.text w)).next (.newline "") = Line.ofWords [] :=
        rfl
      obtain ⟨log, column, hlay, hlines⟩ := ih [] hbehind
      rw [hparts] at hlay
      rw [if_neg hfits] at hmodes
      refine ⟨_, _, layFill_pair_eq_ok.mpr ⟨_, _, _, _, _, _, hmodes, rfl, rfl, hlay, rfl⟩, ?_⟩
      rw [List.nil_append] at hlines
      rw [if_neg hfits, List.map_cons, ← hlines,
        ← Line.text_trim_ofWords_next words (hfirm w (by simp))]
      simp [Line.closedLines_cons, Segment.isNewline, hfirst]

/-- The layout of a reflowed text is the text of its words, wrapped at the width of the page.  No
word is split, dropped or moved, a line that is too wide holds a single word, and a line ends only
where the next word does not fit. -/
theorem layout_paragraph (page : Page) (s : String) :
    (paragraph s).layout page = .ok (Text.wrap page.width (Text.wordsOf s)) ∧
      Text.IsWrapping page.width (Text.wordsOf s)
        (Text.wrapLines page.width (Text.wordsOf s)) := by
  refine ⟨?_, Text.isWrapping_wrapLines page.width (Text.wordsOf s)⟩
  have hfirm : ∀ w ∈ Text.wordsOf s, Text.endsFirm w = true := by
    intro w hw
    obtain ⟨cs, hcs, rfl⟩ := List.mem_map.mp hw
    exact Text.endsFirm_of_mem_words hcs
  rw [paragraph, wordTexts_eq_map]
  cases hwords : Text.wordsOf s with
  | nil => rfl
  | cons w ws =>
    rw [hwords] at hfirm
    obtain ⟨log, column, hlay, hlines⟩ := exists_layFill_words page [] hfirm .broken
    refine layout_eq_ok.mpr ⟨log, column, hlay, ?_⟩
    have hfirst : Line.ofWords [] = Line.first := rfl
    rw [hfirst, List.nil_append] at hlines
    rw [Segment.joined_settle, hlines]
    rfl

end Document

end GlimmerFormat
