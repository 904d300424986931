import GlimmerFormat.Proofs.Layout.DroppedLines
import GlimmerFormat.Proofs.Printing.Blocks
import GlimmerFormat.Proofs.Printing.Statements
import GlimmerFormat.Proofs.Tree.Thinning

/-!
# The markup of thinned trees

A tree without one of its blank texts is printed like the tree itself, with one exception.  The body
of a block is printed on lines of its own as soon as it has a statement, even if this is a blank
text: without it the body has none, and the empty line is gone.

* `Document.Thins`: documents that are equal, or differ by an empty line that is counted.
* `Node.thins_markup`: the markup of a tree without one of its blank texts.
-/

namespace GlimmerFormat

open Markup (QuoteStyle)
open Document (DropsLine)

namespace Document

/-- The second document is the first one, or lacks an empty line of it and counts for one more. -/
def Thins (page : Page) (d : Document) (k : Nat) (d' : Document) (k' : Nat) : Prop :=
  (d' = d ∧ k' = k) ∨ (DropsLine page d d' ∧ k' = k + 1)

variable {page : Page} {d d' : Document} {k k' : Nat}

/-- What is made of documents differs like these. -/
lemma Thins.map (h : Thins page d k d' k') (f : Document → Document)
    (hf : DropsLine page d d' → DropsLine page (f d) (f d')) : Thins page (f d) k (f d') k' := by
  rcases h with ⟨rfl, rfl⟩ | ⟨hdrops, rfl⟩
  · exact .inl ⟨rfl, rfl⟩
  · exact .inr ⟨hf hdrops, rfl⟩

/-- Counting more on both sides from the left changes nothing. -/
lemma Thins.add_left (h : Thins page d k d' k') (m : Nat) :
    Thins page d (m + k) d' (m + k') := by
  rcases h with ⟨rfl, rfl⟩ | ⟨hdrops, rfl⟩
  · exact .inl ⟨rfl, rfl⟩
  · exact .inr ⟨hdrops, by omega⟩

/-- Counting more on both sides from the right changes nothing. -/
lemma Thins.add_right (h : Thins page d k d' k') (m : Nat) :
    Thins page d (k + m) d' (k' + m) := by
  rw [Nat.add_comm k, Nat.add_comm k']
  exact h.add_left m

/-! ## Constructs with an empty line -/

/-- The body of a block keeps an empty line. -/
lemma dropsLine_blockBody (hunit : Text.IsSpacing page.unit) (h : DropsLine page d d') :
    DropsLine page (Markup.blockBody d) (Markup.blockBody d') := by
  rw [blockBody_eq, blockBody_eq]
  exact (h.ofList_append_cons [.hardline] []).indent hunit

/-- An element keeps an empty line among its children. -/
lemma dropsLine_element (hunit : Text.IsSpacing page.unit) (startTag endTag : Document)
    (h : DropsLine page d d') :
    DropsLine page (Markup.element startTag (Markup.children d) endTag)
      (Markup.element startTag (Markup.children d') endTag) := by
  have hindent : ∀ d, Markup.children d = .indent (ofList [softline, d]) := fun d =>
    indented_ofList (List.mem_cons_self ..) rfl rfl
  have hgroup : ∀ d, Markup.element startTag (.indent d) endTag =
      .group (ofList [startTag, .indent d, endTag]) := fun d =>
    grouped_ofList (List.mem_cons_of_mem _ (List.mem_cons_self ..)) rfl rfl
  rw [hindent, hindent, hgroup, hgroup]
  exact (((h.ofList_append_cons [softline] []).indent hunit).ofList_append_cons
    [startTag] [endTag]).group

/-- Before a newline the first document ends an empty line more than the second. -/
def DropsLineBefore (page : Page) (d d' : Document) : Prop :=
  ∀ before after, DropsLine page (ofList (before ++ d :: .hardline :: after))
    (ofList (before ++ d' :: .hardline :: after))

/-- A document that lacks a line anywhere lacks it before a newline. -/
lemma DropsLine.before (h : DropsLine page d d') : DropsLineBefore page d d' :=
  fun before after => h.ofList_append_cons before (.hardline :: after)

/-- A body of nothing but a newline is an empty line, and no body is none. -/
lemma dropsLineBefore_empty (hunit : Text.IsSpacing page.unit) :
    DropsLineBefore page (Markup.blockBody .empty) .empty := by
  intro before after
  have hempty : ofList (before ++ .empty :: .hardline :: after) =
      ofList (before ++ .hardline :: after) := by
    simp [ofList]
  rw [hempty]
  exact ((dropsLine_hardline hunit after).concat_append before).ofList

/-- Behind the body of a block stands a newline: that of its inverse, or that of its end. -/
lemma dropsLine_block_body (header callee : Document) {inverse : Document}
    (hinverse : inverse = .empty ∨ ∃ body, inverse = Markup.blockInverse body)
    (h : DropsLineBefore page d d') :
    DropsLine page (Markup.block header d inverse callee)
      (Markup.block header d' inverse callee) := by
  obtain ⟨after, hafter⟩ : ∃ after, ∀ body,
      [header, body, inverse, .hardline, "\x7b\x7b/", callee, "\x7d\x7d"].flatMap pieces =
        ([header] ++ body :: .hardline :: after).flatMap pieces := by
    rcases hinverse with rfl | ⟨otherwise, rfl⟩
    · exact ⟨["\x7b\x7b/", callee, "\x7d\x7d"], fun body => by simp⟩
    · exact ⟨["\x7b\x7belse\x7d\x7d", otherwise, .hardline, "\x7b\x7b/", callee, "\x7d\x7d"],
        fun body => by simp [pieces_blockInverse]⟩
  rw [block_eq, block_eq, ofList_congr (hafter d), ofList_congr (hafter d')]
  exact (h [header] after).group

/-- Behind the inverse of a block stands the newline of its end. -/
lemma dropsLine_block_inverse (header body callee : Document) (h : DropsLineBefore page d d') :
    DropsLine page (Markup.block header body (Markup.blockInverse d) callee)
      (Markup.block header body (Markup.blockInverse d') callee) := by
  have hlines : ∀ e : Document,
      [header, body, Markup.blockInverse e, .hardline, "\x7b\x7b/", callee,
        "\x7d\x7d"].flatMap pieces =
      ([header, body, .hardline, "\x7b\x7belse\x7d\x7d"] ++ e :: .hardline ::
        ["\x7b\x7b/", callee, "\x7d\x7d"]).flatMap pieces := fun e => by
    simp [pieces_blockInverse]
  rw [block_eq, block_eq, ofList_congr (hlines d), ofList_congr (hlines d')]
  exact (h _ _).group

end Document

namespace Node

variable {page : Page} {style : QuoteStyle} {n n' : Node}

/-! ## Statements -/

/-- A statement that is no text stands among the others with nothing but its own markup. -/
lemma exists_markupBody_eq (style : QuoteStyle) {before : List Node}
    (hbefore : ∀ m ∈ before, m.WellTyped) (after : List Node) :
    ∃ first last, ∀ m : Node, m.WellTyped → m.kind ≠ .text →
      (Value.list ((before ++ m :: after).map .node)).markupStatements style =
        .ofList (first ++ (m.markup style).document :: last) := by
  refine ⟨Value.markupBody style false (before.map .node) ++
    (if !(shown before).isEmpty then [Markup.separator false] else []),
    Value.markupBody style true (after.map .node), ?_⟩
  intro m hm hkind
  have htext : (Value.node m).isTextNode = false := by
    cases m <;> first | rfl | exact absurd rfl hkind
  rw [Value.markupStatements, markupBody_append hbefore,
    markupBody_cons_of_shown hm (isBlankText_of_kind_ne hkind), statementMarkup_of_kind_ne hkind,
    htext, List.append_assoc, Bool.false_or]

/-- Statements without a blank text among them are printed alike and have the same bodies. -/
lemma statements_drop (style : QuoteStyle) {blank : Node} (hblank : blank.isBlankText = true)
    {before after : List Node} (h : ∀ m ∈ before ++ blank :: after, m.WellTyped) :
    (Value.list ((before ++ after).map .node)).markupStatements style =
        (Value.list ((before ++ blank :: after).map .node)).markupStatements style ∧
      (Value.list ((before ++ after).map .node)).emptyBodies =
        (Value.list ((before ++ blank :: after).map .node)).emptyBodies := by
  have hbefore : ∀ m ∈ before, m.WellTyped := fun m hm => h m (by simp [hm])
  constructor
  · rw [Value.markupStatements, Value.markupStatements, markupBody_append hbefore,
      markupBody_append hbefore, markupBody_cons_of_blank (h blank (by simp)) hblank]
  · rw [Value.emptyBodies_append, Value.emptyBodies_append, Value.emptyBodies_cons,
      emptyBodies_of_isBlankText hblank, Nat.zero_add]

/-- Statements one of which may have an empty line more. -/
lemma thins_markupStatements {before after : List Node}
    (hbody : ∀ m ∈ before ++ n :: after, m.IsStatement) (h : n.DropsBlank n')
    (hthins : Document.Thins page (n.markup style).document n.emptyBodies
      (n'.markup style).document n'.emptyBodies) :
    Document.Thins page ((Value.list ((before ++ n :: after).map .node)).markupStatements style)
      (Value.list ((before ++ n :: after).map .node)).emptyBodies
      ((Value.list ((before ++ n' :: after).map .node)).markupStatements style)
      (Value.list ((before ++ n' :: after).map .node)).emptyBodies := by
  have hn := (hbody n (by simp)).wellTyped
  have hbefore : ∀ m ∈ before, m.WellTyped := fun m hm => (hbody m (by simp [hm])).wellTyped
  obtain ⟨first, last, heq⟩ := exists_markupBody_eq style hbefore after
  rw [heq n hn h.kind_ne_text, heq n' (h.wellTyped hn) (h.kind_eq ▸ h.kind_ne_text),
    Value.emptyBodies_append, Value.emptyBodies_append, Value.emptyBodies_cons,
    Value.emptyBodies_cons]
  have hlist := hthins.map (fun d => .ofList (first ++ d :: last))
    fun hdrops => hdrops.ofList_append_cons first last
  exact (hlist.add_right _).add_left _

/-! ## Elements -/

/-- An element with something to show has its children between its tags. -/
lemma elementMarkup_of_shown (tag : String) (attributes : Value) (attributeDocs : List Document)
    (modifiers : Value) (modifierDocs : List Document) {ns : List Node}
    (hwell : ∀ m ∈ ns, m.WellTyped) (hns : shown ns ≠ []) (statements : Document) :
    elementMarkup tag attributes attributeDocs modifiers modifierDocs (.list (ns.map .node))
      statements =
      Markup.element
        (Markup.startTag tag (.ifAny attributes.count (Markup.attributes attributeDocs))
          (.ifAny modifiers.count (Markup.modifiers attributes.isTruthy modifierDocs)) false)
        (Markup.children statements) (Markup.endTag tag) := by
  have hpresent : (Value.list (ns.map .node)).hasContent = .ok true := by
    have hany := Value.anyPresent_map_node hwell
    rwa [List.isEmpty_eq_false_iff.mpr hns] at hany
  have hcloses : Value.closesItself tag (.list (ns.map .node)) = false := by
    cases ns with
    | nil => exact absurd rfl hns
    | cons m ns => simp [Value.closesItself, Value.isTruthy]
  rw [elementMarkup, hpresent, hcloses]
  rfl

/-- An element that is not void is printed by what is shown of its children. -/
lemma elementMarkup_drop {tag : String} (htag : tag ∉ Value.voidElements) (attributes : Value)
    (attributeDocs : List Document) (modifiers : Value) (modifierDocs : List Document)
    {blank : Node} (hblank : blank.isBlankText = true) {before after : List Node}
    (hwell : ∀ m ∈ before ++ blank :: after, m.WellTyped) (statements : Document) :
    elementMarkup tag attributes attributeDocs modifiers modifierDocs
        (.list ((before ++ after).map .node)) statements =
      elementMarkup tag attributes attributeDocs modifiers modifierDocs
        (.list ((before ++ blank :: after).map .node)) statements := by
  have hcloses : ∀ children, Value.closesItself tag children = false := by
    intro children
    simp [Value.closesItself, htag]
  have hshown : shown (before ++ blank :: after) = shown (before ++ after) := by
    rw [shown_append, shown_append, shown_cons_of_blank hblank]
  have hpresent : (Value.list ((before ++ after).map .node)).hasContent =
      (Value.list ((before ++ blank :: after).map .node)).hasContent := by
    have hwell' : ∀ m ∈ before ++ after, m.WellTyped := fun m hm => hwell m (by simp at hm ⊢; tauto)
    have hany := Value.anyPresent_map_node hwell
    rw [hshown] at hany
    exact (Value.anyPresent_map_node hwell').trans hany.symm
  rw [elementMarkup, elementMarkup, hcloses, hcloses, hpresent]

/-! ## Blocks -/

/-- A program is printed as a body exactly if it has statements. -/
lemma bodyMarkup_eq (hn : n.WellTyped) (hkind : n.kind = .program) (d : Document) :
    bodyMarkup (.node n) d =
      if (Value.node n).isEmptyProgram then .empty else Markup.blockBody d := by
  obtain ⟨body, names, rfl⟩ := hn.exists_program hkind
  cases body <;> rfl

/-- A program without statements is printed as nothing and holds no bodies of blocks. -/
lemma of_isEmptyProgram (h : (Value.node n).isEmptyProgram = true) :
    (n.markup style).document = .empty ∧ n.emptyBodies = 0 := by
  unfold Value.isEmptyProgram at h
  split at h
  · next heq =>
    cases heq
    exact ⟨rfl, rfl⟩
  · cases h

/-- Bodies of blocks, where what is made of them is thinned with them. -/
lemma thins_bodyMarkup (hunit : Text.IsSpacing page.unit) (h : n.DropsBlank n')
    (hn : n.WellTyped) (hkind : n.kind = .program)
    (hthins : Document.Thins page (n.markup style).document n.emptyBodies
      (n'.markup style).document n'.emptyBodies)
    (f : Document → Document)
    (hf : ∀ {d d' : Document}, Document.DropsLineBefore page d d' → DropsLine page (f d) (f d')) :
    Document.Thins page (f (bodyMarkup (.node n) ((Value.node n).markup style)))
      ((Value.node n).isEmptyProgram.toNat + (Value.node n).emptyBodies)
      (f (bodyMarkup (.node n') ((Value.node n').markup style)))
      ((Value.node n').isEmptyProgram.toNat + (Value.node n').emptyBodies) := by
  have hbody := bodyMarkup_eq hn hkind ((Value.node n).markup style)
  have hbody' :=
    bodyMarkup_eq (h.wellTyped hn) (h.kind_eq.trans hkind) ((Value.node n').markup style)
  rw [h.isEmptyProgram_eq_false] at hbody ⊢
  rw [hbody, hbody', Value.emptyBodies, Value.emptyBodies, Value.markup, Value.markup]
  cases hempty : (Value.node n').isEmptyProgram with
  | false =>
    exact (hthins.map (fun d => f (Markup.blockBody d)) fun hdrops =>
      hf (Document.dropsLine_blockBody hunit hdrops).before).add_left _
  | true =>
    -- Nothing is left in the body: its empty line goes, and it is one more without statements.
    obtain ⟨hnone, hzero⟩ := @of_isEmptyProgram style n' hempty
    rcases hthins with ⟨hdoc, hcount⟩ | ⟨-, hcount⟩
    · rw [← hdoc, hnone]
      exact .inr ⟨hf (Document.dropsLineBefore_empty hunit), by simp; omega⟩
    · omega

/-- The names of a program do not change when a blank text is dropped. -/
lemma DropsBlank.markupNames_eq (h : n.DropsBlank n') :
    (Value.node n').markupNames = (Value.node n).markupNames := by
  cases h <;> rfl

/-- The inverse of a block is printed as nothing or behind its mark. -/
lemma inverseMarkup_eq (inverse : Value) (statements : Document) :
    inverseMarkup inverse statements = .empty ∨
      ∃ body, inverseMarkup inverse statements = Markup.blockInverse body := by
  unfold inverseMarkup
  split
  · exact .inl rfl
  · exact .inr ⟨_, rfl⟩

/-! ## Every kind of node -/

/-- A tree without one of its blank texts is printed alike, or it has one empty body more and its
markup lacks an empty line. -/
theorem thins_markup (style : QuoteStyle) (hunit : Text.IsSpacing page.unit)
    (h : n.DropsBlank n') : n.WellTyped →
    Document.Thins page (n.markup style).document n.emptyBodies (n'.markup style).document
      n'.emptyBodies := by
  induction h with
  | fromProgram hblank before after =>
    intro hn
    exact .inl (statements_drop style hblank fun m hm => (hn.of_program.1 m hm).wellTyped)
  | @fromElement blank hblank tag htag attributes modifiers before after =>
    intro hn
    have hwell : ∀ m ∈ before ++ blank :: after, m.WellTyped := fun m hm =>
      (hn.of_element.1 m hm).wellTyped
    obtain ⟨hmarkup, hcount⟩ := statements_drop style hblank hwell
    refine .inl ⟨?_, hcount⟩
    simp only [markup, Part.document_doc, hmarkup, Value.string]
    exact elementMarkup_drop htag _ _ _ _ hblank hwell _
  | inProgram h before after blockParams ih =>
    intro hn
    have hbody := hn.of_program.1
    exact thins_markupStatements hbody h (ih (hbody _ (by simp)).wellTyped)
  | @inElement n n' h tag attributes modifiers before after blockParams ih =>
    intro hn
    have hchildren := hn.of_element.1
    have hchildren' := (IsStatement.exchange hchildren fun hm =>
      ⟨h.wellTyped hm.wellTyped, h.kind_eq ▸ hm.kind⟩)
    -- The child in which a text is dropped is no text, so something is shown in any case.
    have hshown : ∀ {m : Node}, m.kind ≠ .text → shown (before ++ m :: after) ≠ [] := fun hm =>
      shown_ne_nil_iff.mpr ⟨_, by simp, isBlankText_of_kind_ne hm⟩
    have hstatements := @thins_markupStatements page style _ _ _ _ hchildren h
      (ih (hchildren n (by simp)).wellTyped)
    simp only [markup, Part.document_doc]
    rw [elementMarkup_of_shown _ _ _ _ _ (fun m hm => (hchildren m hm).wellTyped)
        (hshown h.kind_ne_text),
      elementMarkup_of_shown _ _ _ _ _ (fun m hm => (hchildren' m hm).wellTyped)
        (hshown (h.kind_eq ▸ h.kind_ne_text))]
    exact hstatements.map (fun d => Markup.element _ (Markup.children d) _)
      fun hdrops => Document.dropsLine_element hunit _ _ hdrops
  | inContent h callee params named inverse ih =>
    intro hn
    obtain ⟨hcontent, hkind, -⟩ := hn.of_content
    simp only [markup, Part.document_doc, blockMarkup, h.markupNames_eq]
    exact (thins_bodyMarkup hunit h hcontent hkind (ih hcontent)
      (fun body => Markup.block _ body _ _)
      fun hdrops => Document.dropsLine_block_body _ _ (inverseMarkup_eq _ _) hdrops).add_right _
  | inInverse h callee params named content ih =>
    intro hn
    obtain ⟨hinverse, hkind, -⟩ := hn.of_inverse
    exact (thins_bodyMarkup hunit h hinverse hkind (ih hinverse)
      (fun body => Markup.block _ _ (Markup.blockInverse body) _)
      fun hdrops => Document.dropsLine_block_inverse _ _ _ hdrops).add_left _

end Node

end GlimmerFormat
