import GlimmerFormat.Proofs.Printing.Occurs
import Mathlib.Data.List.Forall2

/-!
# Quotations

Printing adds quotes in three places: around a string literal without quotes of its own, around the
text of an attribute, and around the parts of a concatenation.  What stands between them is put
there as it is, so it reads back only if it holds no such quote itself.

* `Quotation`, `Node.quotation?`: what is put between quotes for a node.
* `Quotation.upTo_raws_iff`: raw texts between quotes read back exactly if none holds the quote.
* `Node.closes_iff`: for which nodes that is so.
* `Quotation.IsWrittenAs`: segments that spell a quotation out.
* `Node.shows_quotation`: the markup of a node with a quotation is laid out with it.
-/

namespace GlimmerFormat

open Markup (QuoteStyle)

/-! ## Quotations and reading them -/

/-- Something between two quotes: raw texts, and calls that are printed in their places. -/
structure Quotation where
  mark : Char
  parts : List (Option String)

/-- What is read behind an opening quote, up to the next quote. -/
def Text.upTo (mark : Char) (s : String) : String :=
  String.ofList (s.toList.takeWhile (· ≠ mark))

namespace Quotation

/-- No raw text between the quotes holds the quote. -/
def Closes (q : Quotation) : Prop :=
  ∀ raw : String, some raw ∈ q.parts → q.mark ∉ raw.toList

/-- Texts that stand for the parts of a quotation: a raw text stands for itself. -/
def IsFilledBy (q : Quotation) (texts : List String) : Prop :=
  List.Forall₂ (fun part text => ∀ raw ∈ part, text = raw) q.parts texts

/-- A text reads back from behind a quote exactly if it does not hold the quote. -/
lemma upTo_iff (mark : Char) (s rest : String) :
    Text.upTo mark (s ++ String.singleton mark ++ rest) = s ↔ mark ∉ s.toList := by
  have hlist : Text.upTo mark (s ++ String.singleton mark ++ rest) = s ↔
      (s.toList ++ mark :: rest.toList).takeWhile (· ≠ mark) = s.toList := by
    rw [← String.toList_inj]
    simp [Text.upTo]
  rw [hlist]
  constructor
  · intro h hmark
    rw [← h] at hmark
    simpa using List.mem_takeWhile_imp hmark
  · intro hmark
    have hne : ∀ c ∈ s.toList, decide (c ≠ mark) = true := by
      intro c hc
      simpa using fun h : c = mark => hmark (h ▸ hc)
    rw [List.takeWhile_append_of_pos hne]
    simp

/-- A quotation of raw texts reads back exactly if it closes. -/
theorem upTo_raws_iff {q : Quotation} {raws texts : List String}
    (hparts : q.parts = raws.map some) (htexts : q.IsFilledBy texts) (rest : String) :
    Text.upTo q.mark (String.join texts ++ String.singleton q.mark ++ rest) = String.join raws ↔
      q.Closes := by
  obtain rfl : texts = raws := by
    rw [IsFilledBy, hparts, List.forall₂_map_left_iff] at htexts
    have heq : List.Forall₂ (· = ·) raws texts := htexts.imp fun raw text h => (h raw rfl).symm
    exact (List.forall₂_eq_eq_eq ▸ heq : raws = texts).symm
  rw [upTo_iff, Closes, hparts]
  simp [String.toList_join]

end Quotation

/-- The preferred quote as a character. -/
def Markup.QuoteStyle.char : QuoteStyle → Char
  | .single => '\''
  | .double => '"'

/-- The raw text that a value puts between quotes, if it is a text. -/
def Value.rawText? : Value → Option String
  | .node (.text (.str s)) => some s
  | _ => none

namespace Node

/-- What is put between quotes for a node, if quotes are added for it. -/
def quotation? (style : QuoteStyle) : Node → Option Quotation
  | .string (.str s) => if Text.holdsQuote s then none else some ⟨style.char, [some s]⟩
  | .attr _ (.node (.text (.str s))) => some ⟨'"', [some s]⟩
  | .concat (.list parts) => some ⟨'"', parts.map Value.rawText?⟩
  | _ => none

variable {style : QuoteStyle} {n : Node} {q : Quotation}

/-- Quotes are added around a string literal without quotes, or they are double quotes of an
attribute or a concatenation. -/
lemma quotation?_eq_some (h : n.quotation? style = some q) :
    (∃ s, n = .string (.str s) ∧ Text.holdsQuote s = false ∧ q = ⟨style.char, [some s]⟩) ∨
      (n.kind = .attr ∨ n.kind = .concat) ∧ q.mark = '"' := by
  unfold quotation? at h
  split at h
  · next s =>
    split at h
    · cases h
    · next hquote => exact .inl ⟨s, rfl, by simpa using hquote, (Option.some.inj h).symm⟩
  · exact .inr ⟨.inl rfl, by rw [← Option.some.inj h]⟩
  · exact .inr ⟨.inr rfl, by rw [← Option.some.inj h]⟩
  · cases h

/-- Quotes are no blanks. -/
lemma isTrailing_mark (h : n.quotation? style = some q) : isTrailing q.mark = false := by
  rcases quotation?_eq_some h with ⟨s, -, -, rfl⟩ | ⟨-, hmark⟩
  · cases style <;> rfl
  · rw [hmark]
    rfl

/-- String literals close, and other quotations do if they hold no double quote. -/
theorem closes_iff (h : n.quotation? style = some q) :
    q.Closes ↔ n.kind = .string ∨ ∀ raw : String, some raw ∈ q.parts → '"' ∉ raw.toList := by
  rcases quotation?_eq_some h with ⟨s, rfl, hquote, rfl⟩ | ⟨hkind, hmark⟩
  · have hliteral : (⟨style.char, [some s]⟩ : Quotation).Closes := by
      intro raw hraw hchar
      obtain rfl : raw = s := by simpa using hraw
      have hholds : Text.holdsQuote raw = true :=
        List.any_eq_true.mpr ⟨style.char, hchar, by cases style <;> rfl⟩
      exact Bool.false_ne_true (hquote.symm.trans hholds)
    simp [hliteral, kind]
  · have hnot : n.kind ≠ .string := by
      rcases hkind with hkind | hkind <;> simp [hkind]
    simp [Quotation.Closes, hmark, hnot]

end Node

/-! ## Written quotations -/

/-- Segments that spell a quotation out: its parts between two quotes.  No part ends where a line
does, so that no blank of it is dropped. -/
def Quotation.IsWrittenAs (q : Quotation) (segments : List Segment) : Prop :=
  ∃ inner : List (List Mark),
    List.Forall₂ (fun part ms => ∀ raw ∈ part, ms = Mark.ofString raw) q.parts inner ∧
    (∀ ms ∈ inner, Mark.endsLine ms = false) ∧
    Mark.ofSegments segments = .char q.mark :: (inner.flatten ++ [.char q.mark])

namespace Document

variable {unit indentation : String} {mode : Mode} {segments : List Segment}

/-- A document is laid out as a part of a quotation. -/
def Writes (unit : String) (part : Option String) (d : Document) : Prop :=
  ∀ ⦃indentation : String⦄ ⦃mode : Mode⦄ ⦃segments : List Segment⦄,
    d.IsRendering unit indentation mode segments →
    Mark.endsLine (Mark.ofSegments segments) = false ∧
      ∀ raw ∈ part, Mark.ofSegments segments = Mark.ofString raw

/-- Whatever a string is laid out as, its marks are its characters. -/
lemma ofSegments_of_isRendering_ofString {s : String}
    (h : (ofString s).IsRendering unit indentation mode segments) :
    Mark.ofSegments segments = Mark.ofString s := by
  unfold ofString at h
  split at h
  · next hs =>
    obtain rfl : segments = [] := h
    rw [hs]
    rfl
  · obtain rfl : segments = [.text s] := h
    simp [Mark.ofSegments]

/-- A string writes itself as a part of a quotation. -/
lemma writes_ofString (s : String) : Writes unit (some s) (ofString s) := by
  intro indentation mode segments h
  have hmarks := ofSegments_of_isRendering_ofString h
  rw [hmarks]
  refine ⟨Mark.endsLine_ofString s, ?_⟩
  rintro raw ⟨⟩
  rfl

/-- An inserted call starts with braces, whatever stands between them. -/
lemma writes_mustache (escaped : Bool) (call : Document) :
    Writes unit none (Markup.mustache escaped call) := by
  have hbraces : ∀ (opening : String) (others : List Document),
      opening.toList.all isTrailing = false →
      Writes unit none (ofList (ofString opening :: others)).grouped := by
    intro opening others hopening indentation mode segments h
    obtain ⟨mode', hparts⟩ := exists_mode_of_grouped h
    obtain ⟨first, behind, hfirst, -, rfl⟩ := isRendering_ofList.mp hparts
    rw [Mark.ofSegments_append, ofSegments_of_isRendering_ofString hfirst, Mark.ofString,
      Mark.endsLine_chars, hopening]
    exact ⟨rfl, by simp⟩
  cases escaped with
  | true => exact hbraces _ _ rfl
  | false => exact hbraces _ _ rfl

/-- Documents one after the other are laid out as parts of a quotation if each of them is. -/
lemma exists_inner_of_areRenderings {parts : List (Option String)} {ds : List Document}
    (hparts : List.Forall₂ (Writes unit) parts ds)
    (h : AreRenderings unit indentation mode ds segments) :
    ∃ inner : List (List Mark),
      List.Forall₂ (fun part ms => ∀ raw ∈ part, ms = Mark.ofString raw) parts inner ∧
      (∀ ms ∈ inner, Mark.endsLine ms = false) ∧ Mark.ofSegments segments = inner.flatten := by
  induction hparts generalizing segments with
  | nil =>
    obtain rfl : segments = [] := h
    exact ⟨[], .nil, by simp, rfl⟩
  | cons hpart hparts ih =>
    obtain ⟨first, others, hfirst, hothers, rfl⟩ := h
    obtain ⟨inner, hinner, hends, hmarks⟩ := ih hothers
    obtain ⟨hendsFirst, hraw⟩ := hpart hfirst
    refine ⟨Mark.ofSegments first :: inner, .cons hraw hinner, by simpa using ⟨hendsFirst, hends⟩,
      ?_⟩
    rw [Mark.ofSegments_append, hmarks, List.flatten_cons]

/-- Documents between quotes are laid out as a quotation if each of them is a part of it. -/
lemma isWrittenAs_of_isRendering {parts : List (Option String)} {ds : List Document}
    (hparts : List.Forall₂ (Writes unit) parts ds)
    (h : (ofList ([Markup.quote] ++ ds ++ [Markup.quote])).IsRendering unit indentation mode
      segments) : (Quotation.mk '"' parts).IsWrittenAs segments := by
  obtain ⟨_, closing, hboth, hclosing, rfl⟩ := areRenderings_append.mp (isRendering_ofList.mp h)
  obtain ⟨opening, between, hopening, hbetween, rfl⟩ := areRenderings_append.mp hboth
  obtain rfl : opening = [.text "\""] := areRenderings_singleton.mp hopening
  obtain rfl : closing = [.text "\""] := areRenderings_singleton.mp hclosing
  obtain ⟨inner, hinner, hends, hmarks⟩ := exists_inner_of_areRenderings hparts hbetween
  refine ⟨inner, hinner, hends, ?_⟩
  rw [Mark.ofSegments_append, Mark.ofSegments_append, hmarks]
  rfl

end Document

namespace Node

variable {blank : Char → Bool} {unit : String} {style : QuoteStyle} {n : Node}

/-- A text or a call between quotes is laid out as a part of a quotation. -/
lemma writes_markup (hn : n.WellTyped) (hkind : n.kind.isQuotable = true) :
    Document.Writes unit (Value.node n).rawText? (n.markup style).document := by
  cases hn with
  | text s => exact Document.writes_ofString s
  | mustache => exact Document.writes_mustache _ _
  | _ => cases hkind

/-- Wherever a well-typed node is laid out, its quotation is spelled out. -/
theorem shows_quotation (blank : Char → Bool) (unit : String) (hn : n.WellTyped) {q : Quotation}
    (h : n.quotation? style = some q) :
    ∃ d, Document.Shows blank unit (n.markup style).document d ∧
      ∀ {indentation : String} {mode : Mode} {segments : List Segment},
        d.IsRendering unit indentation mode segments → q.IsWrittenAs segments := by
  cases hn with
  | string s =>
    -- A string that holds a quote stands as it is, and quotes nothing.
    by_cases hquote : Text.holdsQuote s = true
    · simp [quotation?, hquote] at h
    · obtain rfl : (⟨style.char, [some s]⟩ : Quotation) = q := by simpa [quotation?, hquote] using h
      refine ⟨_, .refl _, ?_⟩
      intro indentation mode segments hsegments
      have hmarks := Document.ofSegments_of_isRendering_ofString hsegments
      have hliteral : style.literal s = style.around s := if_neg hquote
      refine ⟨[Mark.ofString s], .cons ?_ .nil, by simpa using Mark.endsLine_ofString s, ?_⟩
      · rintro raw ⟨⟩
        rfl
      · rw [hmarks, Value.string, hliteral]
        cases style <;> simp [QuoteStyle.around, QuoteStyle.mark, QuoteStyle.char, Mark.ofString]
  | @attr name value hkind hvalue =>
    cases hvalue with
    | text s =>
      obtain rfl : (⟨'"', [some s]⟩ : Quotation) = q := by simpa [quotation?] using h
      refine ⟨Document.ofList ([Markup.quote] ++ [.ofString s] ++ [Markup.quote]), ?_, ?_⟩
      · have hquoted : Document.Shows blank unit
            (Document.ofList ([Document.ofString name, Document.ofString "="] ++
              ([Markup.quote] ++ [.ofString s] ++ [Markup.quote]) ++ []))
            (Document.ofList ([Markup.quote] ++ [.ofString s] ++ [Markup.quote])) :=
          Document.shows_ofList_append _ _ _
        rwa [List.append_nil] at hquoted
      · intro indentation mode segments hsegments
        exact Document.isWrittenAs_of_isRendering (.cons (Document.writes_ofString s) .nil)
          hsegments
    | _ => cases h
  | @concat parts hkinds hparts =>
    obtain rfl : (⟨'"', (parts.map Value.node).map Value.rawText?⟩ : Quotation) = q := by
      simpa [quotation?] using h
    refine ⟨_, Document.shows_grouped _, ?_⟩
    intro indentation mode segments hsegments
    refine Document.isWrittenAs_of_isRendering ?_ hsegments
    rw [Value.markupItems, markupAll_map_node, List.map_map, List.map_map,
      List.forall₂_map_left_iff, List.forall₂_map_right_iff, List.forall₂_same]
    intro p hp
    exact writes_markup (hparts p hp) (hkinds p hp)
  | _ => cases h

end Node

/-! ## Written quotations in a text -/

namespace Mark

/-- No line ends before a character that is neither a space nor a tab. -/
lemma endsLine_char {c : Char} (hc : isTrailing c = false) (ms : List Mark) :
    endsLine (.char c :: ms) = false := by
  have hends := endsLine_chars [c] ms
  simpa [hc] using hends

/-- A character that is neither a space nor a tab is kept. -/
lemma kept_char {c : Char} (hc : isTrailing c = false) (ms : List Mark) :
    kept (.char c :: ms) = c :: kept ms := by
  simp [kept, endsLine_char hc]

/-- Parts in which no line ends are kept one after the other. -/
lemma kept_flatten_append {inner : List (List Mark)} (h : ∀ ms ∈ inner, endsLine ms = false)
    {rest : List Mark} (hrest : endsLine rest = false) :
    kept (inner.flatten ++ rest) = (inner.map kept).flatten ++ kept rest ∧
      endsLine (inner.flatten ++ rest) = false := by
  induction inner with
  | nil => exact ⟨rfl, hrest⟩
  | cons ms inner ih =>
    obtain ⟨hkept, hends⟩ := ih fun ns hns => h ns (by simp [hns])
    rw [List.flatten_cons, List.append_assoc, kept_append hends, endsLine_append hends, hkept,
      List.map_cons, List.flatten_cons, List.append_assoc]
    exact ⟨rfl, h ms (by simp)⟩

end Mark

/-- A quotation that is written on a stretch of segments stands in the text as it is. -/
theorem Quotation.exists_of_isWrittenAs {q : Quotation} (hmark : isTrailing q.mark = false)
    {stretch : List Segment} (h : q.IsWrittenAs stretch) (before after : List Segment) :
    ∃ (first : String) (texts : List String) (last : String), q.IsFilledBy texts ∧
      String.ofList (Mark.kept (Mark.ofSegments (before ++ stretch ++ after))) =
        first ++ String.singleton q.mark ++
          (String.join texts ++ String.singleton q.mark ++ last) := by
  obtain ⟨inner, hinner, hends, hmarks⟩ := h
  have hclosing := Mark.endsLine_char hmark (Mark.ofSegments after)
  obtain ⟨hkept, -⟩ := Mark.kept_flatten_append hends hclosing
  refine ⟨String.ofList (Mark.kept (Mark.ofSegments before)),
    inner.map fun ms => String.ofList (Mark.kept ms),
    String.ofList (Mark.kept (Mark.ofSegments after)), ?_, ?_⟩
  · rw [IsFilledBy, List.forall₂_map_right_iff]
    refine hinner.imp ?_
    intro part ms hms raw hraw
    rw [hms raw hraw, Mark.ofString, Mark.kept_chars, String.ofList_toList]
  · have hopening := Mark.endsLine_char hmark
      (inner.flatten ++ .char q.mark :: Mark.ofSegments after)
    have hjoined : (String.join (inner.map fun ms => String.ofList (Mark.kept ms))).toList =
        (inner.map Mark.kept).flatten := by
      simp [String.toList_join, List.flatMap_def, Function.comp_def]
    rw [Mark.ofSegments_append, Mark.ofSegments_append, hmarks, List.append_assoc,
      List.cons_append, List.append_assoc, List.singleton_append, Mark.kept_append hopening,
      Mark.kept_char hmark, hkept, Mark.kept_char hmark]
    apply String.toList_injective
    simp [hjoined]

end GlimmerFormat
