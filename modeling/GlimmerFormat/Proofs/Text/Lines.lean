import GlimmerFormat.Proofs.Layout.Lines

/-!
# The lines of a text

The newline characters of a text cut it into lines.  A text can be moved to the right by an
indentation in front of its lines; what this leaves at the end of a line may be dropped, and lines
on which nothing stands may be left alone.

* `Text.lines_intercalate`: texts without newline characters are the lines of what they make below
  each other.
* `Text.indented_eq_indentedShown`: where lines are trimmed, both ways to indent them are the same.
* `Text.withoutLastLine_append`: a line below a text can be taken away again.
-/

namespace GlimmerFormat

namespace Text

/-- A text without newline characters. -/
def IsOneLine (s : String) : Prop :=
  '\n' ∉ s.toList

instance (s : String) : Decidable (IsOneLine s) :=
  inferInstanceAs (Decidable (_ ∉ _))

/-- The lines of a text. -/
def lines (s : String) : List String :=
  (s.toList.splitOn '\n').map String.ofList

/-- Lines without the spaces and tabs at the ends of all but the last. -/
def trimLines : List String → List String
  | [] => []
  | [l] => [l]
  | l :: next :: ls => trimmed l :: trimLines (next :: ls)

/-- A text with an indentation in front of each line.  Lines that end are trimmed. -/
def indented (indentation s : String) : String :=
  "\n".intercalate (trimLines ((lines s).map (indentation ++ ·)))

/-- A text with an indentation in front of each line that is not empty. -/
def indentedShown (indentation s : String) : String :=
  "\n".intercalate ((lines s).map fun l => if l = "" then "" else indentation ++ l)

/-! ## Texts on one line -/

/-- The empty text holds no newline character. -/
lemma isOneLine_empty : IsOneLine "" := by
  simp [IsOneLine]

/-- A text is on one line exactly if both its parts are. -/
@[simp] lemma isOneLine_append {s t : String} :
    IsOneLine (s ++ t) ↔ IsOneLine s ∧ IsOneLine t := by
  simp [IsOneLine]

/-- Characters are on one line exactly if no newline character is among them. -/
lemma isOneLine_ofList {cs : List Char} : IsOneLine (String.ofList cs) ↔ '\n' ∉ cs := by
  rw [IsOneLine, String.toList_ofList]

/-- What is left of a text on one line when it is trimmed is on one line. -/
lemma IsOneLine.trimmed {s : String} (h : IsOneLine s) : IsOneLine (trimmed s) := by
  intro hmem
  rw [toList_trimmed] at hmem
  exact h ((List.rdropWhile_prefix isTrailing s.toList).mem hmem)

/-- What is left of a text when it is trimmed keeps what stands before it. -/
lemma trimmed_append_of_ne {s t : String} (h : trimmed t ≠ "") :
    trimmed (s ++ t) = s ++ trimmed t := by
  have hlist : t.toList.rdropWhile isTrailing ≠ [] := by
    rwa [← toList_trimmed, Ne, String.toList_eq_nil_iff]
  apply String.toList_injective
  rw [toList_trimmed, String.toList_append, rdropWhile_append, if_neg hlist, String.toList_append,
    toList_trimmed]

/-- Texts on one line are joined to a text on one line. -/
lemma isOneLine_intercalate {separator : String} (hseparator : IsOneLine separator)
    {parts : List String} (h : ∀ part ∈ parts, IsOneLine part) :
    IsOneLine (separator.intercalate parts) := by
  induction parts with
  | nil => exact isOneLine_empty
  | cons part parts ih =>
    have hothers := ih fun other hother => h other (by simp [hother])
    by_cases hparts : parts = []
    · rw [hparts, String.intercalate_singleton]
      exact h part (by simp)
    · rw [String.intercalate_cons_of_ne_nil hparts, isOneLine_append, isOneLine_append]
      exact ⟨⟨h part (by simp), hseparator⟩, hothers⟩

/-! ## Cutting and joining -/

/-- Texts on one line each are the lines of what they make below each other. -/
lemma lines_intercalate {ls : List String} (hne : ls ≠ []) (h : ∀ l ∈ ls, IsOneLine l) :
    lines ("\n".intercalate ls) = ls := by
  have hlists : ∀ cs ∈ ls.map String.toList, '\n' ∉ cs := by
    intro cs hcs
    obtain ⟨l, hl, rfl⟩ := List.mem_map.mp hcs
    exact h l hl
  have hnewline : "\n".toList = ['\n'] := rfl
  rw [lines, String.toList_intercalate, hnewline,
    List.splitOn_intercalate '\n' hlists (by simpa using hne)]
  simp [Function.comp_def]

/-- All lines before the last one are trimmed, and the last one is not. -/
lemma trimLines_concat (ls : List String) (l : String) :
    trimLines (ls ++ [l]) = ls.map trimmed ++ [l] := by
  induction ls with
  | nil => rfl
  | cons first ls ih =>
    have hne : ls ++ [l] ≠ [] := by simp
    obtain ⟨next, others, hnext⟩ := List.exists_cons_of_ne_nil hne
    rw [List.cons_append, hnext, trimLines, ← hnext, ih]
    rfl

/-- Lines below each other, indented. -/
lemma indented_intercalate (indentation : String) {ls : List String} {l : String}
    (hls : ∀ k ∈ ls, IsOneLine k) (hl : IsOneLine l) :
    indented indentation ("\n".intercalate (ls ++ [l])) =
      "\n".intercalate (ls.map (fun k => trimmed (indentation ++ k)) ++ [indentation ++ l]) := by
  have hall : ∀ k ∈ ls ++ [l], IsOneLine k := by
    intro k hk
    rcases List.mem_append.mp hk with hk | hk
    · exact hls k hk
    · exact List.mem_singleton.mp hk ▸ hl
  rw [indented, lines_intercalate (by simp) hall, List.map_append, List.map_singleton,
    trimLines_concat, List.map_map]
  rfl

/-- Where lines are trimmed and the last of them is not empty, empty lines are left alone. -/
theorem indented_eq_indentedShown {indentation : String} (hindentation : trimmed indentation = "")
    {ls : List String} {l : String} (hls : ∀ k ∈ ls, IsOneLine k)
    (htrimmed : ∀ k ∈ ls, trimmed k = k) (hl : IsOneLine l) (hne : l ≠ "") :
    indented indentation ("\n".intercalate (ls ++ [l])) =
      indentedShown indentation ("\n".intercalate (ls ++ [l])) := by
  have hall : ∀ k ∈ ls ++ [l], IsOneLine k :=
    List.forall_mem_append.mpr ⟨hls, List.forall_mem_singleton.mpr hl⟩
  have hline : ∀ k ∈ ls, trimmed (indentation ++ k) = if k = "" then "" else indentation ++ k := by
    intro k hk
    split
    · next hempty => rw [hempty, String.append_empty, hindentation]
    · next hempty => rw [trimmed_append_of_ne (by rwa [htrimmed k hk]), htrimmed k hk]
  rw [indented_intercalate indentation hls hl, indentedShown, lines_intercalate (by simp) hall,
    List.map_append, List.map_singleton, if_neg hne, List.map_congr_left hline]

/-- A text without its last line. -/
def withoutLastLine (s : String) : String :=
  "\n".intercalate (lines s).dropLast

/-- A line below a text is its last line. -/
lemma withoutLastLine_append (s : String) {l : String} (hl : IsOneLine l) :
    withoutLastLine (s ++ "\n" ++ l) = s := by
  have hnewline : "\n".toList = ['\n'] := rfl
  have hlines : lines (s ++ "\n" ++ l) = lines s ++ [l] := by
    rw [lines, String.toList_append, String.toList_append, hnewline, List.append_assoc,
      List.singleton_append, List.splitOn_append_cons_self, List.splitOn_eq_singleton hl,
      List.map_append, List.map_singleton, String.ofList_toList]
    rfl
  have hwhole : "\n".intercalate (lines s) = s := by
    apply String.toList_injective
    rw [String.toList_intercalate, lines, List.map_map, hnewline]
    simp [Function.comp_def]
  rw [withoutLastLine, hlines, List.dropLast_concat, hwhole]

end Text

end GlimmerFormat
