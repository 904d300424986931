import Mathlib.Data.List.Chain
import Mathlib.Data.List.Induction
import Mathlib.Tactic.Lemma

/-!
# Wrapping words

Words are put on lines from first to last.  A word goes on the line of the word before it if both
fit there with a space between them, and opens a line otherwise.  `Text.wrap` does this in one pass
over the words; `Text.IsWrapping` says it of the lines, without saying how they are found.

* `Text.isWrapping_wrapLines`: the lines hold all words in order, only a single word is wider than a
  line, and a line ends only where the next word does not fit.
* `Text.IsWrapping.eq_wrapLines`: no other lines are like this.
-/

namespace GlimmerFormat.Text

/-- The text of words on one line. -/
def lineText (line : List String) : String :=
  " ".intercalate line

/-- Puts words on lines, the first of which holds some words already. -/
def fillLines (width : Int) (line : List String) : List String → List (List String)
  | [] => [line]
  | w :: ws =>
    if (lineText line).length + 1 + w.length ≤ width then fillLines width (line ++ [w]) ws
    else line :: fillLines width [w] ws

/-- Puts words on lines, the first word on the first. -/
def wrapLines (width : Int) : List String → List (List String)
  | [] => []
  | w :: ws => fillLines width [w] ws

/-- The text of words on lines of some width. -/
def wrap (width : Int) (ws : List String) : String :=
  "\n".intercalate ((wrapLines width ws).map lineText)

/-- Whether the first word of the next line does not fit on a line. -/
def IsFull (width : Int) (line next : List String) : Prop :=
  ∃ w ∈ next.head?, width < (lineText line).length + 1 + w.length

/-- Lines hold words in order, and each line as many of them as fit. -/
structure IsWrapping (width : Int) (ws : List String) (lines : List (List String)) : Prop where
  /-- No word is split, dropped or moved. -/
  flatten_eq : lines.flatten = ws
  /-- No line is without a word. -/
  ne_nil : ∀ line ∈ lines, line ≠ []
  /-- A line that is too wide holds a single word. -/
  overflow : ∀ line ∈ lines, width < (lineText line).length → ∃ w, line = [w]
  /-- A line ends only where the next word does not fit. -/
  full : lines.IsChain (IsFull width)

/-! ## Lines -/

/-- The text of a single word is the word. -/
@[simp] lemma lineText_singleton (w : String) : lineText [w] = w :=
  String.intercalate_singleton

/-- A word goes behind others with a space between. -/
lemma lineText_concat {line : List String} (h : line ≠ []) (w : String) :
    lineText (line ++ [w]) = lineText line ++ " " ++ w := by
  rw [lineText, String.intercalate_append_of_ne_nil h (by simp), String.intercalate_singleton]
  rfl

/-- A word behind others takes its own characters and one for the space. -/
lemma length_lineText_concat {line : List String} (h : line ≠ []) (w : String) :
    (lineText (line ++ [w])).length = (lineText line).length + 1 + w.length := by
  rw [lineText_concat h, String.length_append, String.length_append]
  rfl

/-- More words on a line make it no narrower. -/
lemma length_lineText_le_append {line : List String} (h : line ≠ []) (more : List String) :
    (lineText line).length ≤ (lineText (line ++ more)).length := by
  induction more using List.reverseRecOn with
  | nil => simp
  | append_singleton more w ih =>
    rw [← List.append_assoc, length_lineText_concat (by simp [h])]
    omega

/-! ## One pass over the words -/

variable {width : Int}

/-- The line that holds some words already comes first, with more words behind them. -/
lemma exists_fillLines (line ws : List String) :
    ∃ more lines, fillLines width line ws = (line ++ more) :: lines := by
  induction ws generalizing line with
  | nil => exact ⟨[], [], by simp [fillLines]⟩
  | cons w ws ih =>
    rw [fillLines]
    split
    · obtain ⟨more, lines, h⟩ := ih (line ++ [w])
      exact ⟨w :: more, lines, by simpa using h⟩
    · exact ⟨[], fillLines width [w] ws, by simp⟩

/-- What one more word preserves: if a line is not too wide but for a single word, the lines from
there on are wrapped. -/
lemma isWrapping_fillLines {line : List String} (hne : line ≠ [])
    (hline : width < (lineText line).length → ∃ w, line = [w]) (ws : List String) :
    IsWrapping width (line ++ ws) (fillLines width line ws) := by
  induction ws generalizing line with
  | nil =>
    refine ⟨by simp [fillLines], ?_, ?_, .singleton line⟩
    · simpa [fillLines] using hne
    · simpa [fillLines] using hline
  | cons w ws ih =>
    rw [fillLines]
    split
    · next hfits =>
      -- A line that takes a word more is not too wide.
      have hlonger : width < (lineText (line ++ [w])).length → ∃ v, line ++ [w] = [v] := by
        intro h
        rw [length_lineText_concat hne] at h
        push_cast at h
        omega
      simpa using ih (by simp) hlonger
    · next hfits =>
      -- The line is full, and the word opens the next one.
      have hbehind := @ih [w] (by simp) fun _ => ⟨w, rfl⟩
      obtain ⟨more, lines, hlines⟩ := @exists_fillLines width [w] ws
      refine ⟨by simp [hbehind.flatten_eq], ?_, ?_, ?_⟩
      · exact List.forall_mem_cons.mpr ⟨hne, hbehind.ne_nil⟩
      · exact List.forall_mem_cons.mpr ⟨hline, hbehind.overflow⟩
      · have hfull : IsFull width line ([w] ++ more) := ⟨w, rfl, by omega⟩
        rw [hlines]
        exact .cons_cons hfull (hlines ▸ hbehind.full)

/-- The lines found in one pass are wrapped. -/
theorem isWrapping_wrapLines (width : Int) (ws : List String) :
    IsWrapping width ws (wrapLines width ws) := by
  cases ws with
  | nil => exact ⟨rfl, by simp [wrapLines], by simp [wrapLines], .nil⟩
  | cons w ws => exact isWrapping_fillLines (by simp) (fun _ => ⟨w, rfl⟩) ws

example : wrap 9 ["the", "quick", "brownish", "fox"] = "the quick\nbrownish\nfox" := by decide

/-! ## No other lines -/

/-- The lines behind the first of wrapped lines are wrapped. -/
lemma IsWrapping.tail {ws line : List String} {lines : List (List String)}
    (h : IsWrapping width ws (line :: lines)) : IsWrapping width lines.flatten lines :=
  ⟨rfl, fun next hnext => h.ne_nil next (by simp [hnext]),
    fun next hnext => h.overflow next (by simp [hnext]), h.full.tail⟩

/-- Wrapped lines are found in one pass from any word of their first line on. -/
lemma IsWrapping.eq_fillLines {ws line more behind : List String} {lines : List (List String)}
    (h : IsWrapping width ws ((line ++ more) :: lines)) (hne : line ≠ [])
    (hbehind : more ++ lines.flatten = behind) :
    (line ++ more) :: lines = fillLines width line behind := by
  induction behind generalizing ws line more lines with
  | nil =>
    obtain ⟨rfl, hflatten⟩ := List.append_eq_nil_iff.mp hbehind
    obtain rfl : lines = [] := by
      cases lines with
      | nil => rfl
      | cons next lines =>
        obtain ⟨hnext, -⟩ := List.append_eq_nil_iff.mp hflatten
        exact absurd hnext (h.ne_nil next (by simp))
    simp [fillLines]
  | cons w behind ih =>
    cases more with
    | cons v more =>
      obtain ⟨rfl, hmore⟩ := List.cons.inj hbehind
      -- A line of two words or more is not too wide, so the second fits behind the first.
      have hwide : ¬ width < (lineText (line ++ v :: more)).length := by
        intro hwide
        obtain ⟨u, hu⟩ := h.overflow _ (by simp) hwide
        have hlength := congrArg List.length hu
        have hpos := List.length_pos_of_ne_nil hne
        simp only [List.length_append, List.length_cons, List.length_nil] at hlength
        omega
      have hlonger : line ++ [v] ≠ [] := by simp
      have hprefix := length_lineText_le_append hlonger more
      rw [length_lineText_concat hne, List.append_assoc, List.singleton_append] at hprefix
      have hmoved : (line ++ v :: more) :: lines = ((line ++ [v]) ++ more) :: lines := by simp
      rw [fillLines, if_pos (by omega), hmoved]
      exact ih (hmoved ▸ h) hlonger hmore
    | nil =>
      cases lines with
      | nil => simp at hbehind
      | cons next lines =>
        obtain ⟨v, others, rfl⟩ := List.exists_cons_of_ne_nil (h.ne_nil next (by simp))
        obtain ⟨rfl, hothers⟩ := List.cons.inj hbehind
        -- The line is full, so its next word does not fit.
        obtain ⟨u, hu, hfull⟩ := (List.isChain_cons_cons.mp h.full).1
        obtain rfl : v = u := by simpa using hu
        rw [List.append_nil] at hfull
        have hnext : IsWrapping width _ (([v] ++ others) :: lines) := h.tail
        rw [fillLines, if_neg (by omega), List.append_nil, ← ih hnext (by simp) hothers]
        rfl

/-- Wrapped lines are those that are found in one pass. -/
theorem IsWrapping.eq_wrapLines {ws : List String} {lines : List (List String)}
    (h : IsWrapping width ws lines) : lines = wrapLines width ws := by
  obtain rfl := h.flatten_eq
  cases lines with
  | nil => rfl
  | cons line lines =>
    obtain ⟨w, more, rfl⟩ := List.exists_cons_of_ne_nil (h.ne_nil line (by simp))
    have hfirst : IsWrapping width _ (([w] ++ more) :: lines) := h
    exact hfirst.eq_fillLines (by simp) rfl

end GlimmerFormat.Text
