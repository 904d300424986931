import GlimmerFormat.Proofs.Layout.Lines
import GlimmerFormat.Proofs.Tree.Tokens

/-!
# Pieces of a text in two quote styles

A formatted text is made of pieces: of segments that do not depend on the quote style, and of
literals between quotes.  Pieces give one text in each style, and the two texts differ in the
quotes of the literals and nowhere else.

* `Piece`: a part of a text, told apart by whether it is a literal between quotes.
* `Piece.differInQuotes_text`: the two texts of pieces differ exactly at the quotes of literals.
* `Piece.exists_settle`: trimming the lines of pieces leaves pieces with the same literals.
-/

namespace GlimmerFormat

open Markup (QuoteStyle)

/-! ## Quotes -/

namespace Markup.QuoteStyle

/-- A literal ends in a quote, so nothing of it is trimmed. -/
lemma trim_around (style : QuoteStyle) (s : String) :
    (Segment.text (style.around s)).trim = .text (style.around s) := by
  obtain ⟨q, hmark, hq⟩ : ∃ q, style.mark.toList = [q] ∧ isTrailing q = false := by
    cases style
    · exact ⟨'\'', rfl, rfl⟩
    · exact ⟨'"', rfl, rfl⟩
  have hkept : (style.around s).toList.rdropWhile isTrailing = (style.around s).toList := by
    rw [QuoteStyle.around, String.toList_append, hmark]
    exact List.rdropWhile_concat_neg _ _ _ (by simp [hq])
  have htrimmed : trimmed (style.around s) = style.around s := by
    rw [← String.toList_inj, toList_trimmed, hkept]
  rw [Segment.trim, htrimmed]

end Markup.QuoteStyle

/-! ## Pieces -/

/-- A part of a text: a segment that is the same in both styles, or a literal between quotes. -/
inductive Piece where
  | plain (s : Segment)
  | literal (s : String)

namespace Piece

/-- The segment of a piece in some style. -/
def segment (style : QuoteStyle) : Piece → Segment
  | .plain s => s
  | .literal s => .text (style.around s)

/-- A literal between quotes. -/
def literal? : Piece → Option String
  | .plain _ => none
  | .literal s => some s

/-- The literals among pieces, in order. -/
def literals (ps : List Piece) : List String :=
  ps.filterMap literal?

/-- The text of pieces in some style. -/
def text (style : QuoteStyle) (ps : List Piece) : String :=
  Segment.joined (ps.map (segment style))

/-- No pieces hold no literals. -/
@[simp] lemma literals_nil : literals [] = [] := rfl

/-- A segment that is the same in both styles is no literal. -/
@[simp] lemma literals_plain (s : Segment) (ps : List Piece) :
    literals (.plain s :: ps) = literals ps := rfl

/-- A literal comes before those behind it. -/
@[simp] lemma literals_literal (s : String) (ps : List Piece) :
    literals (.literal s :: ps) = s :: literals ps := rfl

/-- The literals of pieces put together are those of each. -/
@[simp] lemma literals_append (ps qs : List Piece) :
    literals (ps ++ qs) = literals ps ++ literals qs :=
  List.filterMap_append

/-- Segments that are the same in both styles hold no literals. -/
@[simp] lemma literals_map_plain (ss : List Segment) : literals (ss.map plain) = [] := by
  induction ss with
  | nil => rfl
  | cons s ss ih => simpa using ih

/-- Segments that are the same in both styles are so in each of them. -/
lemma map_segment_map_plain (style : QuoteStyle) (ss : List Segment) :
    (ss.map plain).map (segment style) = ss := by
  induction ss with
  | nil => rfl
  | cons s ss ih => rw [List.map_cons, List.map_cons, ih]; rfl

end Piece

/-! ## Where the two texts differ -/

/-- Two texts of one length that have a single and a double quote at the given places, and the
same characters at all others. -/
structure DifferInQuotes (places : List Nat) (xs ys : List Char) : Prop where
  length_eq : xs.length = ys.length
  quotes : ∀ i ∈ places, xs[i]? = some '\'' ∧ ys[i]? = some '"'
  others : ∀ i, i ∉ places → xs[i]? = ys[i]?

namespace DifferInQuotes

/-- The same text in both styles differs nowhere. -/
lemma self (xs : List Char) : DifferInQuotes [] xs xs :=
  ⟨rfl, by simp, fun _ _ => rfl⟩

/-- The two quotes differ in their one place. -/
lemma quote : DifferInQuotes [0] ['\''] ['"'] := by
  refine ⟨rfl, by simp, ?_⟩
  intro i hi
  have hpos : 1 ≤ i := by
    have hne : i ≠ 0 := by simpa using hi
    omega
  rw [List.getElem?_eq_none hpos, List.getElem?_eq_none hpos]

/-- Of texts that follow others, the places are counted behind these. -/
lemma append {ps qs : List Nat} {xs ys xs' ys' : List Char} (h : DifferInQuotes ps xs ys)
    (h' : DifferInQuotes qs xs' ys') :
    DifferInQuotes (ps ++ qs.map (· + xs.length)) (xs ++ xs') (ys ++ ys') := by
  have hlength := h.length_eq
  refine ⟨by rw [List.length_append, List.length_append, hlength, h'.length_eq], ?_, ?_⟩
  · intro i hi
    rcases List.mem_append.mp hi with hi | hi
    · obtain ⟨hx, hy⟩ := h.quotes i hi
      obtain ⟨hxlt, -⟩ := List.getElem?_eq_some_iff.mp hx
      rw [List.getElem?_append_left hxlt, List.getElem?_append_left (hlength ▸ hxlt)]
      exact ⟨hx, hy⟩
    · obtain ⟨j, hj, rfl⟩ := List.mem_map.mp hi
      rw [List.getElem?_append_right (by omega), List.getElem?_append_right (by omega), ← hlength,
        Nat.add_sub_cancel]
      exact h'.quotes j hj
  · intro i hi
    rw [List.mem_append, not_or] at hi
    by_cases hlt : i < xs.length
    · rw [List.getElem?_append_left hlt, List.getElem?_append_left (hlength ▸ hlt)]
      exact h.others i hi.1
    · rw [List.getElem?_append_right (by omega), List.getElem?_append_right (by omega), ← hlength]
      refine h'.others _ ?_
      intro hmem
      exact hi.2 (List.mem_map.mpr ⟨_, hmem, by omega⟩)

/-- A literal in the two styles differs at its two quotes. -/
lemma around (s : String) :
    DifferInQuotes [0, s.length + 1] (QuoteStyle.single.around s).toList
      (QuoteStyle.double.around s).toList := by
  have h := (quote.append (self s.toList)).append quote
  have hsingle : (QuoteStyle.single.around s).toList = ['\''] ++ s.toList ++ ['\''] := by
    simp [QuoteStyle.around, QuoteStyle.mark]
  have hdouble : (QuoteStyle.double.around s).toList = ['"'] ++ s.toList ++ ['"'] := by
    simp [QuoteStyle.around, QuoteStyle.mark]
  rw [hsingle, hdouble, ← String.length_toList]
  simpa using h

end DifferInQuotes

namespace Piece

/-- The places of the quotes around the literals of pieces. -/
def delimiters : List Piece → List Nat
  | [] => []
  | .plain s :: ps => (delimiters ps).map (· + s.render.length)
  | .literal s :: ps => 0 :: (s.length + 1) :: (delimiters ps).map (· + (s.length + 2))

/-- The texts of pieces in the two styles differ exactly at the quotes around their literals. -/
theorem differInQuotes_text (ps : List Piece) :
    DifferInQuotes (delimiters ps) (text .single ps).toList (text .double ps).toList := by
  induction ps with
  | nil => exact .self []
  | cons p ps ih =>
    have htext : ∀ style, (text style (p :: ps)).toList =
        (p.segment style).render.toList ++ (text style ps).toList := by
      intro style
      rw [text, List.map_cons, Segment.joined_cons, String.toList_append]
      rfl
    rw [htext, htext]
    cases p with
    | plain s => exact (DifferInQuotes.self s.render.toList).append ih
    | literal s =>
      have h := (DifferInQuotes.around s).append ih
      have hlength : (QuoteStyle.single.around s).toList.length = s.length + 2 :=
        QuoteStyle.length_around .single s
      rw [hlength] at h
      exact h

end Piece

/-! ## The ends of lines -/

namespace Piece

/-- Trimming the end of pieces leaves their literals. -/
lemma exists_trimEnd (ps : List Piece) :
    ∃ qs, literals qs = literals ps ∧
      ∀ style, Segment.trimEnd (ps.map (segment style)) = qs.map (segment style) := by
  induction ps with
  | nil => exact ⟨[], rfl, fun _ => rfl⟩
  | cons p ps ih =>
    cases p with
    | literal s =>
      refine ⟨.literal s :: ps, rfl, ?_⟩
      intro style
      rw [List.map_cons, segment, Segment.trimEnd, QuoteStyle.trim_around,
        Segment.render, if_neg (QuoteStyle.around_ne_empty style s)]
    | plain s =>
      by_cases hs : s.trim.render = ""
      · obtain ⟨qs, hliterals, hqs⟩ := ih
        refine ⟨qs, hliterals, ?_⟩
        intro style
        rw [List.map_cons, segment, Segment.trimEnd, if_pos hs, hqs]
      · refine ⟨.plain s.trim :: ps, rfl, ?_⟩
        intro style
        rw [List.map_cons, segment, Segment.trimEnd, if_neg hs]
        rfl

/-- Adding a piece to others, the last one first, leaves their literals. -/
lemma exists_push (before : List Piece) (p : Piece) :
    ∃ qs, literals qs = literals (p :: before) ∧
      ∀ style, Segment.push (before.map (segment style)) (p.segment style) =
        qs.map (segment style) := by
  by_cases hp : ∃ s, p = .plain s ∧ s.isNewline = true
  · obtain ⟨s, rfl, hs⟩ := hp
    obtain ⟨qs, hliterals, hqs⟩ := exists_trimEnd before
    refine ⟨.plain s :: qs, hliterals, ?_⟩
    intro style
    rw [segment, Segment.push, if_pos hs, hqs]
    rfl
  · refine ⟨p :: before, rfl, ?_⟩
    intro style
    have hinline : ¬ (p.segment style).isNewline = true := by
      cases p with
      | plain s => exact fun hs => hp ⟨s, rfl, hs⟩
      | literal s => exact Bool.false_ne_true
    rw [Segment.push, if_neg hinline]
    rfl

/-- Trimming the lines of pieces leaves their literals. -/
lemma exists_foldl_push (ps before : List Piece) :
    ∃ qs, literals qs = (literals ps).reverse ++ literals before ∧
      ∀ style, (ps.map (segment style)).foldl Segment.push (before.map (segment style)) =
        qs.map (segment style) := by
  induction ps generalizing before with
  | nil => exact ⟨before, rfl, fun _ => rfl⟩
  | cons p ps ih =>
    obtain ⟨next, hnext, hpush⟩ := exists_push before p
    obtain ⟨qs, hliterals, hqs⟩ := ih next
    refine ⟨qs, ?_, ?_⟩
    · rw [hliterals, hnext]
      cases p <;> simp
    · intro style
      rw [List.map_cons, List.foldl_cons, hpush, hqs]

/-- Trimming all lines but the last leaves pieces with the same literals. -/
theorem exists_settle (ps : List Piece) :
    ∃ qs, literals qs = literals ps ∧
      ∀ style, Segment.settle (ps.map (segment style)) = qs.map (segment style) := by
  obtain ⟨qs, hliterals, hqs⟩ := exists_foldl_push ps []
  refine ⟨qs.reverse, ?_, ?_⟩
  · have hreverse : literals qs.reverse = (literals qs).reverse := List.filterMap_reverse
    rw [hreverse, hliterals]
    simp
  · intro style
    rw [Segment.settle, ← List.map_nil, hqs, List.map_reverse]

end Piece

end GlimmerFormat
