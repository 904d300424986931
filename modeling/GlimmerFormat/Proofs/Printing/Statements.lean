import GlimmerFormat.Proofs.Document.Ink
import GlimmerFormat.Proofs.Layout.Endings
import GlimmerFormat.Proofs.Printing.Markup
import GlimmerFormat.Proofs.Tree.Blank

/-!
# The markup of statements

Statements are printed one after the other with a break between any two.  Blank texts among them
leave no trace, and each statement that is shown ends in a word or in the end of a construct, so
that a break behind it takes nothing away.

* `Node.markupBody_shown`: the markup of statements is that of the statements shown.
* `Node.markupBody_append`: statements behind others stand behind a break of their own.
* `Node.endFirm_markupBody`: the markup of statements ends firm.
-/

namespace GlimmerFormat

open Markup (QuoteStyle)
open Document (endFirm)

/-! ## Words -/

namespace Text

/-- No word is empty. -/
lemma ne_nil_of_mem_words {cs w : List Char} (h : w ∈ words cs) : w ≠ [] := by
  have hcons : ∀ {c : Char} {ws : List (List Char)}, (∀ v ∈ ws, v ≠ []) →
      ∀ v ∈ consFirst c ws, v ≠ [] := by
    intro c ws hws v hv
    cases ws with
    | nil => simp_all [consFirst]
    | cons u us =>
      rcases List.mem_cons.mp hv with rfl | hv
      · simp
      · exact hws v (by simp [hv])
  induction cs generalizing w with
  | nil => cases h
  | cons c cs ih =>
    rw [words] at h
    split at h
    · exact ih h
    · split at h
      · rcases List.mem_cons.mp h with rfl | h
        · simp
        · exact ih h
      · exact hcons (fun v => ih) w h

/-- A word ends in a character that is not blank. -/
lemma endsFirm_of_mem_words {cs w : List Char} (h : w ∈ words cs) :
    endsFirm (String.ofList w) = true := by
  have hw := ne_nil_of_mem_words h
  have hlast : w.getLast hw ∈ (words cs).flatten :=
    List.mem_flatten.mpr ⟨w, h, List.getLast_mem hw⟩
  have hnot : isBlank (w.getLast hw) = false := by
    rw [flatten_words] at hlast
    simpa using (List.mem_filter.mp hlast).2
  have htrailing : isTrailing (w.getLast hw) = false := by
    rw [Bool.eq_false_iff]
    intro htrailing
    rcases Bool.or_eq_true_iff.mp htrailing with hc | hc
    · simp [eq_of_beq hc] at hnot
    · simp [eq_of_beq hc] at hnot
  simp [endsFirm, List.getLast?_eq_some_getLast hw, htrailing]

end Text

/-! ## The ends of constructs -/

namespace Document

variable {before : Bool}

/-- Documents with separators between them end like the last of them. -/
lemma endFirm_intersperse (separator : Document) {ds : List Document} (hds : ds ≠ [])
    (h : ∀ d ∈ ds, ∀ before, d.endsFirm before = true) :
    endFirm before (ds.intersperse separator) = true := by
  induction ds generalizing before with
  | nil => exact absurd rfl hds
  | cons d ds ih =>
    cases ds with
    | nil => exact h d (by simp) before
    | cons e es => exact ih (by simp) fun d hd => h d (by simp [hd])

/-- A reflowed text that is not blank ends in a word. -/
lemma endsFirm_paragraph {s : String} (h : Text.isBlankText s = false) :
    (paragraph s).endsFirm before = true := by
  have hne : wordTexts s ≠ [] := by
    rw [Ne, wordTexts_eq_nil_iff, h]
    simp
  refine endFirm_intersperse line hne ?_
  intro d hd before
  obtain ⟨w, hw, rfl⟩ := List.mem_map.mp hd
  have hempty : String.ofList w ≠ "" := by
    simpa using Text.ne_nil_of_mem_words hw
  rw [endsFirm, if_neg hempty]
  exact Text.endsFirm_of_mem_words hw

/-- Statements stand behind breaks. -/
lemma isBreak_separator (isText : Bool) : (Markup.separator isText).IsBreak := by
  cases isText <;> trivial

/-- An inserted value ends firm, in the brackets that close it. -/
@[simp] lemma endsFirm_mustache (escaped : Bool) (call : Document) :
    (Markup.mustache escaped call).endsFirm before = true := by
  cases escaped <;> simp [Markup.mustache, Text.endsFirm, isTrailing]

/-- A comment ends firm, in the brackets that close it. -/
@[simp] lemma endsFirm_comment (text : String) :
    (Markup.comment text).endsFirm before = true := by
  simp [Markup.comment, Text.endsFirm, isTrailing]

/-- A block ends firm, in the brackets that close it. -/
@[simp] lemma endsFirm_block (header body inverse callee : Document) :
    (Markup.block header body inverse callee).endsFirm before = true := by
  simp [Markup.block, Text.endsFirm, isTrailing]

/-- A start tag ends firm, in the bracket that closes it. -/
@[simp] lemma endsFirm_startTag (name : String) (attributes modifiers : Document)
    (selfCloses : Bool) :
    (Markup.startTag name attributes modifiers selfCloses).endsFirm before = true := by
  cases selfCloses <;> simp [Markup.startTag, Text.endsFirm, isTrailing]

/-- An end tag ends firm, in the bracket that closes it. -/
@[simp] lemma endsFirm_endTag (name : String) : (Markup.endTag name).endsFirm before = true := by
  simp [Markup.endTag, Text.endsFirm, isTrailing]

end Document

namespace Node

variable {style : QuoteStyle} {n : Node}

/-- An element ends in its end tag, or in its start tag if it closes itself. -/
lemma endsFirm_elementMarkup (tag : String) (attributes : Value) (attributeDocs : List Document)
    (modifiers : Value) (modifierDocs : List Document) (children : List Value)
    (statements : Document) (before : Bool) :
    (elementMarkup tag attributes attributeDocs modifiers modifierDocs (.list children)
      statements).endsFirm before = true := by
  rw [elementMarkup, Markup.element, Document.endsFirm_grouped, Document.endsFirm_ofList]
  cases hcloses : Value.closesItself tag (.list children) with
  | false => simp
  | true =>
    -- What closes itself has no children, so its start tag is all of it.
    obtain rfl : children = [] := by
      simpa [Value.closesItself, Value.isTruthy] using (Bool.and_eq_true_iff.mp hcloses).2
    have hnone : Fault.yes (Value.list []).hasContent = false := rfl
    simp [hnone]

/-! ## Statements one after the other -/

/-- What is printed for a statement among others: text is reflowed. -/
def statementMarkup (style : QuoteStyle) (n : Node) : Document :=
  (Value.node n).reflowed ((Value.node n).markup style)

/-- What is no text is printed among statements as by itself. -/
lemma statementMarkup_of_kind_ne (hkind : n.kind ≠ .text) :
    n.statementMarkup style = (n.markup style).document := by
  cases n <;> first | rfl | exact absurd rfl hkind

/-- A statement that is shown ends firm, whatever stands before it. -/
lemma endsFirm_statementMarkup (hwell : n.WellTyped) (hkind : n.kind.isStatement = true)
    (hshown : n.isBlankText = false) (before : Bool) :
    (n.statementMarkup style).endsFirm before = true := by
  cases hwell with
  | text chars => exact Document.endsFirm_paragraph hshown
  | mustache | comment => simp [statementMarkup, Value.reflowed, Value.markup, markup]
  | block => exact Document.endsFirm_block ..
  | element => exact endsFirm_elementMarkup ..
  | _ => cases hkind

/-- A blank text in front does not show in what statements are printed as. -/
lemma markupBody_cons_of_blank {ns : List Node} (hwell : n.WellTyped)
    (hblank : n.isBlankText = true) (after : Bool) :
    Value.markupBody style after ((n :: ns).map .node) =
      Value.markupBody style after (ns.map .node) := by
  rw [List.map_cons, Value.markupBody, Value.isBlankNode_node hwell, hblank]
  rfl

/-- A statement that is shown stands behind those before it with a separator. -/
lemma markupBody_cons_of_shown {ns : List Node} (hwell : n.WellTyped)
    (hshown : n.isBlankText = false) (after : Bool) :
    Value.markupBody style after ((n :: ns).map .node) =
      (if after then [Markup.separator (Value.node n).isTextNode] else []) ++
        n.statementMarkup style :: Value.markupBody style true (ns.map .node) := by
  rw [List.map_cons, Value.markupBody, Value.isBlankNode_node hwell, hshown]
  rfl

/-- Blank texts among statements leave no trace. -/
lemma markupBody_shown {ns : List Node} (hwell : ∀ n ∈ ns, n.WellTyped) (after : Bool) :
    Value.markupBody style after (ns.map .node) =
      Value.markupBody style after ((shown ns).map .node) := by
  induction ns generalizing after with
  | nil => rfl
  | cons n ns ih =>
    have hothers := ih fun m hm => hwell m (by simp [hm])
    have hn := hwell n (by simp)
    cases hblank : n.isBlankText with
    | true => rw [shown_cons_of_blank hblank, markupBody_cons_of_blank hn hblank, hothers]
    | false =>
      rw [shown_cons_of_not_blank hblank, markupBody_cons_of_shown hn hblank, hothers,
        markupBody_cons_of_shown hn hblank]

/-- Where no statement is shown there is no markup. -/
lemma markupBody_of_shown_eq_nil {ns : List Node} (hwell : ∀ n ∈ ns, n.WellTyped)
    (hns : shown ns = []) (after : Bool) :
    Value.markupBody style after (ns.map .node) = [] := by
  rw [markupBody_shown hwell, hns]
  rfl

/-- The markup of statements behind others depends on these only through whether some of them are
shown. -/
lemma markupBody_append {xs ys : List Node} (hwell : ∀ n ∈ xs, n.WellTyped) (after : Bool) :
    Value.markupBody style after ((xs ++ ys).map .node) =
      Value.markupBody style after (xs.map .node) ++
        Value.markupBody style (after || !(shown xs).isEmpty) (ys.map .node) := by
  induction xs generalizing after with
  | nil => simp [Value.markupBody]
  | cons x xs ih =>
    have hothers := ih fun m hm => hwell m (by simp [hm])
    have hx := hwell x (by simp)
    cases hblank : x.isBlankText with
    | true =>
      rw [List.cons_append, markupBody_cons_of_blank hx hblank, hothers,
        markupBody_cons_of_blank hx hblank, shown_cons_of_blank hblank]
    | false =>
      rw [List.cons_append, markupBody_cons_of_shown hx hblank, hothers,
        markupBody_cons_of_shown hx hblank, shown_cons_of_not_blank hblank]
      simp

/-- Statements behind others start with a break of their own. -/
lemma exists_isBreak_markupBody (style : QuoteStyle) {ns : List Node}
    (hwell : ∀ n ∈ ns, n.WellTyped) (hns : shown ns ≠ []) :
    ∃ b : Document, b.IsBreak ∧
      Value.markupBody style true (ns.map .node) =
        b :: Value.markupBody style false (ns.map .node) := by
  induction ns with
  | nil => exact absurd rfl hns
  | cons n ns ih =>
    have hn := hwell n (by simp)
    cases hblank : n.isBlankText with
    | true =>
      rw [shown_cons_of_blank hblank] at hns
      rw [markupBody_cons_of_blank hn hblank, markupBody_cons_of_blank hn hblank]
      exact ih (fun m hm => hwell m (by simp [hm])) hns
    | false =>
      rw [markupBody_cons_of_shown hn hblank, markupBody_cons_of_shown hn hblank]
      exact ⟨_, Document.isBreak_separator _, rfl⟩

/-- Statements of which some are shown end firm, as the last of these does. -/
lemma endFirm_markupBody {ns : List Node} (hwell : ∀ n ∈ ns, n.WellTyped)
    (hkinds : ∀ n ∈ ns, n.kind.isStatement = true) (hns : shown ns ≠ []) (before after : Bool) :
    endFirm before (Value.markupBody style after (ns.map .node)) = true := by
  induction ns generalizing before after with
  | nil => exact absurd rfl hns
  | cons n ns ih =>
    have hn := hwell n (by simp)
    have hwell' : ∀ m ∈ ns, m.WellTyped := fun m hm => hwell m (by simp [hm])
    have hothers := ih hwell' fun m hm => hkinds m (by simp [hm])
    cases hblank : n.isBlankText with
    | true =>
      rw [shown_cons_of_blank hblank] at hns
      rw [markupBody_cons_of_blank hn hblank]
      exact hothers hns before after
    | false =>
      rw [markupBody_cons_of_shown hn hblank, Document.endFirm_append, Document.endFirm_cons]
      by_cases hlast : shown ns = []
      · rw [markupBody_of_shown_eq_nil hwell' hlast]
        exact endsFirm_statementMarkup hn (hkinds n (by simp)) hblank _
      · exact hothers hlast _ true

end Node

end GlimmerFormat
