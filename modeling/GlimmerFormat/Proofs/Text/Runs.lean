import GlimmerFormat.Text.Words
import Mathlib.Data.List.Basic
import Mathlib.Data.List.Pairwise
import Mathlib.Tactic.Lemma

/-!
# Words as maximal runs

Where a word starts and ends in a text is a matter of the characters around it: a run of characters
that are not blank is a word if a blank or an end of the text stands on either side.  `Text.words`
goes through a text character by character.  What it finds are the runs of this kind, all of them
and each once, in the order in which they stand.

* `Text.IsRunAt`: a maximal run, with the position at which it starts.
* `Text.AreRuns`: the maximal runs of a text, all of them, in order.
* `Text.exists_areRuns_words`: the words of a text are its maximal runs.
* `Text.words_append_blank`: blanks between two texts keep their words apart.
-/

namespace GlimmerFormat.Text

/-- Characters that are not blank, at least one. -/
structure IsWord (w : List Char) : Prop where
  ne_nil : w ≠ []
  solid : ∀ c ∈ w, isBlank c = false

/-- A word stands in a text behind so many characters, and it goes on as far as it can: what stands
beside it, if anything, is blank. -/
def IsRunAt (cs : List Char) (start : Nat) (w : List Char) : Prop :=
  IsWord w ∧ ∃ before behind : List Char, cs = before ++ w ++ behind ∧ before.length = start ∧
    (∀ c ∈ before.getLast?, isBlank c = true) ∧ ∀ c ∈ behind.head?, isBlank c = true

/-- The maximal runs of a text, all of them and each once, in order of the positions at which they
start. -/
structure AreRuns (cs : List Char) (starts : List Nat) (ws : List (List Char)) : Prop where
  length_eq : starts.length = ws.length
  increasing : starts.Pairwise (· < ·)
  mem_iff : ∀ start w, (start, w) ∈ starts.zip ws ↔ IsRunAt cs start w

variable {c : Char} {cs w : List Char} {i : Nat}

/-- A character that is not blank is a word. -/
lemma isWord_singleton (hc : isBlank c = false) : IsWord [c] :=
  ⟨List.cons_ne_nil c [], by simpa using hc⟩

/-- A character in front of a word makes a word exactly if it is not blank. -/
lemma isWord_cons (hw : w ≠ []) : IsWord (c :: w) ↔ isBlank c = false ∧ IsWord w := by
  constructor
  · intro h
    have hsolid := List.forall_mem_cons.mp h.solid
    exact ⟨hsolid.1, hw, hsolid.2⟩
  · rintro ⟨hc, h⟩
    exact ⟨List.cons_ne_nil c w, List.forall_mem_cons.mpr ⟨hc, h.solid⟩⟩

/-- A word ends where nothing or a blank comes next. -/
lemma endsWord_iff : endsWord cs = true ↔ ∀ c ∈ cs.head?, isBlank c = true := by
  cases cs <;> simp [endsWord]

/-! ## Where runs stand -/

/-- No word stands in the empty text. -/
lemma not_isRunAt_nil : ¬IsRunAt [] i w := by
  rintro ⟨hw, before, behind, htext, -⟩
  have hnil : w = [] := by
    have hall := List.append_eq_nil_iff.mp htext.symm
    exact (List.append_eq_nil_iff.mp hall.1).2
  exact hw.ne_nil hnil

/-- A run at the front of a text ends where the characters that are not blank do. -/
lemma isRunAt_zero :
    IsRunAt cs 0 w ↔ IsWord w ∧ ∃ behind, cs = w ++ behind ∧ endsWord behind = true := by
  constructor
  · rintro ⟨hw, before, behind, rfl, hlength, -, hbehind⟩
    obtain rfl : before = [] := List.length_eq_zero_iff.mp hlength
    exact ⟨hw, behind, rfl, endsWord_iff.mpr hbehind⟩
  · rintro ⟨hw, behind, rfl, hbehind⟩
    exact ⟨hw, [], behind, rfl, rfl, by simp, endsWord_iff.mp hbehind⟩

/-- A run further on is one of the text without its first character; at the front of that text, it
is one only behind a blank. -/
lemma isRunAt_succ :
    IsRunAt (c :: cs) (i + 1) w ↔ IsRunAt cs i w ∧ (i = 0 → isBlank c = true) := by
  constructor
  · rintro ⟨hw, before, behind, htext, hlength, hbefore, hbehind⟩
    cases before with
    | nil => cases hlength
    | cons b before =>
      obtain ⟨rfl, rfl⟩ := List.cons.inj htext
      have hlength : before.length = i := by simpa using hlength
      cases before with
      | nil =>
        exact ⟨⟨hw, [], behind, rfl, hlength, by simp, hbehind⟩, fun _ => by simpa using hbefore⟩
      | cons d ds =>
        rw [List.getLast?_cons_cons] at hbefore
        refine ⟨⟨hw, d :: ds, behind, rfl, hlength, hbefore, hbehind⟩, fun hi => ?_⟩
        rw [hi] at hlength
        cases hlength
  · rintro ⟨⟨hw, before, behind, rfl, hlength, hbefore, hbehind⟩, hc⟩
    refine ⟨hw, c :: before, behind, rfl, by simp [hlength], ?_, hbehind⟩
    cases before with
    | nil => simpa using hc hlength.symm
    | cons d ds => rwa [List.getLast?_cons_cons]

/-- No run stands where a blank does. -/
lemma not_isRunAt_zero_of_isBlank (hc : isBlank c = true) : ¬IsRunAt (c :: cs) 0 w := by
  rw [isRunAt_zero]
  rintro ⟨hw, behind, htext, -⟩
  cases w with
  | nil => exact hw.ne_nil rfl
  | cons d ds =>
    obtain ⟨rfl, -⟩ := List.cons.inj htext
    simp [hw.solid] at hc

/-- No run stands at the front of a text that starts with no word. -/
lemma not_isRunAt_zero_of_endsWord (h : endsWord cs = true) : ¬IsRunAt cs 0 w := by
  cases cs with
  | nil => exact not_isRunAt_nil
  | cons d ds => exact not_isRunAt_zero_of_isBlank h

/-- A run that starts with a character goes on with the run behind it, if there is one. -/
lemma isRunAt_zero_cons (hc : isBlank c = false) :
    IsRunAt (c :: cs) 0 w ↔
      (w = [c] ∧ endsWord cs = true) ∨ ∃ v, w = c :: v ∧ IsRunAt cs 0 v := by
  simp only [isRunAt_zero]
  constructor
  · rintro ⟨hw, behind, htext, hbehind⟩
    cases w with
    | nil => exact absurd rfl hw.ne_nil
    | cons d v =>
      obtain ⟨rfl, rfl⟩ := List.cons.inj htext
      cases v with
      | nil => exact .inl ⟨rfl, hbehind⟩
      | cons e es =>
        exact .inr ⟨e :: es, rfl, ((isWord_cons (by simp)).mp hw).2, behind, rfl, hbehind⟩
  · rintro (⟨rfl, hend⟩ | ⟨v, rfl, hv, behind, rfl, hbehind⟩)
    · exact ⟨isWord_singleton hc, cs, rfl, hend⟩
    · exact ⟨(isWord_cons hv.ne_nil).mpr ⟨hc, hv⟩, behind, rfl, hbehind⟩

/-- At the front of a text that starts with a word there is a run. -/
lemma exists_isRunAt_zero (h : endsWord cs = false) : ∃ w, IsRunAt cs 0 w := by
  induction cs with
  | nil => cases h
  | cons c cs ih =>
    cases hend : endsWord cs with
    | true => exact ⟨[c], (isRunAt_zero_cons h).mpr (.inl ⟨rfl, hend⟩)⟩
    | false =>
      obtain ⟨v, hv⟩ := ih hend
      exact ⟨c :: v, (isRunAt_zero_cons h).mpr (.inr ⟨v, rfl, hv⟩)⟩

/-! ## One character more -/

namespace AreRuns

variable {starts : List Nat} {ws : List (List Char)}

/-- Where all words start one character later, each starts one behind its former start. -/
lemma mem_zip_shifted {start : Nat} :
    (start, w) ∈ (starts.map (· + 1)).zip ws ↔ ∃ i, start = i + 1 ∧ (i, w) ∈ starts.zip ws := by
  rw [List.zip_map_left, List.mem_map]
  constructor
  · rintro ⟨⟨i, v⟩, hmem, heq⟩
    obtain ⟨rfl, rfl⟩ := Prod.mk.inj heq
    exact ⟨i, rfl, hmem⟩
  · rintro ⟨i, rfl, hmem⟩
    exact ⟨(i, w), hmem, rfl⟩

/-- Starts in increasing order are so one character later. -/
lemma increasing_shifted (h : starts.Pairwise (· < ·)) :
    (starts.map (· + 1)).Pairwise (· < ·) :=
  List.pairwise_map.mpr (h.imp fun hlt => Nat.succ_lt_succ hlt)

/-- The empty text has no runs. -/
lemma nil : AreRuns [] [] [] :=
  ⟨rfl, .nil, fun _ _ => ⟨nofun, fun h => absurd h not_isRunAt_nil⟩⟩

/-- A blank in front of a text moves its runs on. -/
lemma blank (h : AreRuns cs starts ws) (hc : isBlank c = true) :
    AreRuns (c :: cs) (starts.map (· + 1)) ws where
  length_eq := by simp [h.length_eq]
  increasing := increasing_shifted h.increasing
  mem_iff start w := by
    simp only [mem_zip_shifted, h.mem_iff]
    cases start with
    | zero => simp [not_isRunAt_zero_of_isBlank hc]
    | succ i => simp [isRunAt_succ, hc]

/-- A character in front of a text that starts with no word is a word of its own. -/
lemma single (h : AreRuns cs starts ws) (hc : isBlank c = false) (hend : endsWord cs = true) :
    AreRuns (c :: cs) (0 :: starts.map (· + 1)) ([c] :: ws) where
  length_eq := by simp [h.length_eq]
  increasing := List.pairwise_cons.mpr ⟨by simp, increasing_shifted h.increasing⟩
  mem_iff start w := by
    have hnone : ∀ v, ¬IsRunAt cs 0 v := fun v => not_isRunAt_zero_of_endsWord hend
    simp only [List.zip_cons_cons, List.mem_cons, Prod.mk.injEq, mem_zip_shifted, h.mem_iff]
    cases start with
    | zero => simp [isRunAt_zero_cons hc, hend, hnone]
    | succ i =>
      have hpositive : IsRunAt cs i w → i ≠ 0 := by
        rintro hrun rfl
        exact hnone w hrun
      rw [isRunAt_succ]
      constructor
      · rintro (⟨hi, -⟩ | ⟨j, hj, hrun⟩)
        · cases hi
        · obtain rfl : i = j := Nat.succ.inj hj
          exact ⟨hrun, fun hi => absurd hi (hpositive hrun)⟩
      · rintro ⟨hrun, -⟩
        exact .inr ⟨i, rfl, hrun⟩

/-- If a text starts with a word, the first of its runs stands at its front. -/
lemma exists_cons (h : AreRuns cs starts ws) (hend : endsWord cs = false) :
    ∃ starts' v ws', starts = 0 :: starts' ∧ ws = v :: ws' := by
  obtain ⟨v, hv⟩ := exists_isRunAt_zero hend
  have hmem := (h.mem_iff 0 v).mpr hv
  match starts, ws, hmem, h.increasing with
  | start :: starts', w :: ws', hmem, hincreasing =>
    refine ⟨starts', w, ws', ?_, rfl⟩
    -- A later position than the first cannot be zero.
    rcases List.mem_cons.mp (List.of_mem_zip hmem).1 with rfl | hlater
    · rfl
    · exact absurd ((List.pairwise_cons.mp hincreasing).1 0 hlater) (Nat.not_lt_zero start)

/-- A character in front of a text that starts with a word makes this word longer. -/
lemma grow (h : AreRuns cs starts ws) (hc : isBlank c = false) (hend : endsWord cs = false) :
    AreRuns (c :: cs) (0 :: starts.tail.map (· + 1)) (consFirst c ws) := by
  obtain ⟨starts, v, ws, rfl, rfl⟩ := h.exists_cons hend
  have hincreasing := List.pairwise_cons.mp h.increasing
  have hrun : ∀ i u, IsRunAt cs i u ↔ (i = 0 ∧ u = v) ∨ (i, u) ∈ starts.zip ws := by
    intro i u
    rw [← h.mem_iff, List.zip_cons_cons, List.mem_cons, Prod.mk.injEq]
  -- Only the first run stands at the front.
  have hpositive : ∀ u, (0, u) ∉ starts.zip ws :=
    fun u hu => absurd (hincreasing.1 0 (List.of_mem_zip hu).1) (Nat.lt_irrefl 0)
  refine ⟨by simpa [consFirst] using h.length_eq,
    List.pairwise_cons.mpr ⟨by simp, increasing_shifted hincreasing.2⟩, fun start w => ?_⟩
  simp only [List.tail_cons, consFirst, List.zip_cons_cons, List.mem_cons, Prod.mk.injEq,
    mem_zip_shifted]
  cases start with
  | zero => simp [isRunAt_zero_cons hc, hend, hrun, hpositive]
  | succ i =>
    rw [isRunAt_succ, hrun]
    constructor
    · rintro (⟨hi, -⟩ | ⟨j, hj, hmem⟩)
      · cases hi
      · obtain rfl : i = j := Nat.succ.inj hj
        refine ⟨.inr hmem, ?_⟩
        rintro rfl
        exact absurd hmem (hpositive w)
    · rintro ⟨⟨rfl, rfl⟩ | hmem, hblank⟩
      · simp [hc] at hblank
      · exact .inr ⟨i, rfl, hmem⟩

end AreRuns

/-- The words of a text are its maximal runs of characters that are not blank. -/
theorem exists_areRuns_words (cs : List Char) : ∃ starts, AreRuns cs starts (words cs) := by
  induction cs with
  | nil => exact ⟨[], .nil⟩
  | cons c cs ih =>
    obtain ⟨starts, h⟩ := ih
    rw [words]
    cases hc : isBlank c with
    | true => exact ⟨_, h.blank hc⟩
    | false =>
      cases hend : endsWord cs with
      | true => exact ⟨_, h.single hc hend⟩
      | false => exact ⟨_, h.grow hc hend⟩

/-- A word of a text is a run in it. -/
lemma isWord_of_mem_words (h : w ∈ words cs) : IsWord w := by
  obtain ⟨starts, hruns⟩ := exists_areRuns_words cs
  obtain ⟨i, hi, rfl⟩ := List.getElem_of_mem h
  have hstart : i < starts.length := by rwa [hruns.length_eq]
  have hmem : (starts[i], (words cs)[i]) ∈ starts.zip (words cs) := by
    rw [List.mem_iff_getElem]
    exact ⟨i, by simpa [Nat.lt_min] using ⟨hstart, hi⟩, by simp⟩
  exact ((hruns.mem_iff _ _).mp hmem).1

/-! ## Texts joined by blanks -/

/-- Blanks have no words, whatever stands behind them. -/
lemma words_blank_append {gap : List Char} (hgap : ∀ b ∈ gap, isBlank b = true)
    (ds : List Char) : words (gap ++ ds) = words ds := by
  induction gap with
  | nil => rfl
  | cons b gap ih =>
    obtain ⟨hb, hgap⟩ := List.forall_mem_cons.mp hgap
    rw [List.cons_append, words_cons_of_isBlank _ hb, ih hgap]

/-- Blanks between two texts keep their words apart. -/
lemma words_append_blank {gap : List Char} (hne : gap ≠ [])
    (hgap : ∀ b ∈ gap, isBlank b = true) (cs ds : List Char) :
    words (cs ++ gap ++ ds) = words cs ++ words ds := by
  cases gap with
  | nil => exact absurd rfl hne
  | cons b gap =>
    obtain ⟨hb, hgap⟩ := List.forall_mem_cons.mp hgap
    rw [List.append_assoc, List.cons_append, words_append_cons cs _ hb,
      words_blank_append hgap]

end GlimmerFormat.Text
