import GlimmerFormat.Text.Blank

/-!
# Words

The words of a text are its maximal runs of characters that are not blank, in order.
A blank cuts a text in two: the words of the whole are those of the parts.
-/

namespace GlimmerFormat.Text

/-- Whether a word that stands before these characters would end here. -/
def endsWord : List Char → Bool
  | [] => true
  | c :: _ => isBlank c

/-- Puts a character in front of the first word. -/
def consFirst (c : Char) : List (List Char) → List (List Char)
  | [] => [[c]]
  | w :: ws => (c :: w) :: ws

/-- The maximal runs of characters that are not blank, in order. -/
def words : List Char → List (List Char)
  | [] => []
  | c :: cs =>
    if isBlank c then words cs
    else if endsWord cs then [c] :: words cs
    else consFirst c (words cs)

/-- The empty text has no words. -/
@[simp] theorem words_nil : words [] = [] := rfl

/-- With a character in front of the first word there is a word. -/
theorem consFirst_ne_nil (c : Char) (ws : List (List Char)) : consFirst c ws ≠ [] := by
  cases ws <;> simp [consFirst]

/-- A character goes in front of the first word, whatever words follow. -/
theorem consFirst_append (c : Char) {ws : List (List Char)} (h : ws ≠ []) (vs : List (List Char)) :
    consFirst c (ws ++ vs) = consFirst c ws ++ vs := by
  cases ws <;> simp_all [consFirst]

/-- A text has no word exactly when all of it is blank. -/
theorem words_eq_nil_iff (cs : List Char) : words cs = [] ↔ cs.all isBlank = true := by
  induction cs with
  | nil => simp
  | cons c cs ih =>
    by_cases hc : isBlank c = true
    · simp [words, hc, ih]
    · cases he : endsWord cs <;> simp [words, hc, he, consFirst_ne_nil]

/-- Before a character that does not end a word there is a word. -/
theorem words_ne_nil_of_endsWord {cs : List Char} (h : endsWord cs = false) : words cs ≠ [] := by
  cases cs with
  | nil => simp [endsWord] at h
  | cons c cs =>
    rw [endsWord] at h
    simp [words_eq_nil_iff, h]

/-- A blank at the front of a text belongs to no word. -/
@[simp] theorem words_cons_of_isBlank {c : Char} (cs : List Char) (h : isBlank c = true) :
    words (c :: cs) = words cs := by
  simp [words, h]

/-- A blank ends the word before it. -/
theorem words_append_cons (cs ds : List Char) {b : Char} (hb : isBlank b = true) :
    words (cs ++ b :: ds) = words cs ++ words ds := by
  induction cs with
  | nil => simp [hb]
  | cons c cs ih =>
    by_cases hc : isBlank c = true
    · simp [hc, ih]
    · have he : endsWord (cs ++ b :: ds) = endsWord cs := by cases cs <;> simp [endsWord, hb]
      cases h : endsWord cs
      · simp [words, hc, he, h, ih, consFirst_append c (words_ne_nil_of_endsWord h)]
      · simp [words, hc, he, h, ih]

end GlimmerFormat.Text
