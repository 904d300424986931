import GlimmerFormat.Proofs.Format.Content
import GlimmerFormat.Proofs.Printing.Occurs

/-!
# Block parameters in formatted templates

Blocks and elements both carry names that they give to what they hold.  The header of a block is
formatted with its names between bars, however deep the block stands.  The start tag of an element
is formatted without them: whatever names it carries, they are lost.

* `Node.ink_header`, `Node.ink_startTagMarkup`: what a header and a start tag say.
* `Node.format_names`: the headers of all blocks and the start tags of all elements in a tree.
* `Node.format_element_loses_names`: an element whose names are not in the text.
-/

namespace GlimmerFormat

open Markup (QuoteStyle)

namespace Node

variable {style : QuoteStyle} {m n : Node}

/-! ## Headers and start tags -/

/-- The header of a block says what it calls and which names it gives. -/
lemma ink_header {callee named : Node} {params : List Node} {names : List String} (body : Value)
    (hkinds : CallKinds callee params named) (hcallee : callee.WellTyped)
    (hparams : ∀ p ∈ params, p.WellTyped) (hnamed : named.WellTyped) (hnames : names ≠ []) :
    (Markup.blockHeader (callMarkup ((Value.node callee).markup style) (.list (params.map .node))
      ((Value.list (params.map .node)).markupItems style) (.node named)
      ((Value.node named).markup style))
      (Value.node (.program body (.list (names.map .str)))).markupNames).ink Text.isBlank =
      Text.ink Text.isBlank ("\x7b\x7b#" ++ (Value.node callee).tokens style ++
        (Value.list (params.map .node)).tokens style ++ (Value.node named).tokens style ++ "as|" ++
        String.join names ++ "|" ++ "\x7d\x7d") := by
  have hcall := ink_callMarkup hnamed hkinds.named (@ink_markup style _ hcallee)
    (fun p hp => ink_markup (hparams p hp)) (ink_markup hnamed)
  have hbars : (Value.node (.program body (.list (names.map .str)))).blockNames =
      "as|" ++ String.join names ++ "|" := by
    rw [Value.blockNames, Value.texts_map_str, if_neg (by simpa using hnames)]
  rw [Document.ink_blockHeader, hcall, ink_markupNames, hbars]
  simp only [Text.ink_append, Value.tokens, List.append_assoc]

/-- The start tag of an element says its name, its attributes and its modifiers. -/
lemma ink_startTagMarkup (tag : String) {attributes modifiers : List Node}
    (hattributes : ∀ n ∈ attributes, n.WellTyped) (hmodifiers : ∀ n ∈ modifiers, n.WellTyped)
    (selfCloses : Bool) :
    (Markup.startTag tag
      (.ifAny (Value.list (attributes.map .node)).count
        (Markup.attributes ((Value.list (attributes.map .node)).markupItems style)))
      (.ifAny (Value.list (modifiers.map .node)).count
        (Markup.modifiers (Value.list (attributes.map .node)).isTruthy
          ((Value.list (modifiers.map .node)).markupItems style)))
      selfCloses).ink Text.isBlank =
      Text.ink Text.isBlank ("<" ++ tag ++ (Value.list (attributes.map .node)).tokens style ++
        (Value.list (modifiers.map .node)).tokens style ++ if selfCloses then "/>" else ">") := by
  have hattributesInk := ink_ifAny_markupItems _ Document.ink_attributes
    fun n hn => @ink_markup style _ (hattributes n hn)
  have hmodifiersInk := ink_ifAny_markupItems _
    (Document.ink_modifiers (Value.list (attributes.map .node)).isTruthy)
    fun n hn => @ink_markup style _ (hmodifiers n hn)
  rw [Document.ink_startTag, hattributesInk, hmodifiersInk]
  cases selfCloses <;> simp

/-! ## Formatted templates -/

/-- A part of the markup of a node that occurs in a tree is found in the text of the tree. -/
lemma exists_ink_of_occurs {s : Settings} (hn : n.WellTyped) (hm : m.Occurs n)
    (hkind : m.kind ≠ .text) {d : Document} (hd : d.IsSteady)
    (hshows : Document.Shows Text.isBlank s.page.unit (m.markup s.style).document d)
    {text : String} (h : (n.format s).outcome = .ok text) :
    ∃ before stretch after : String, text = before ++ stretch ++ after ∧
      Text.ink Text.isBlank stretch = d.ink Text.isBlank := by
  have hunit := s.ink_unit Text.coversSpacing_isBlank
  have hshown : Document.Shows Text.isBlank s.page.unit (n.markup s.style).document d :=
    (shows_of_occurs Text.coversSpacing_isBlank hunit hn hm hkind).trans hshows
  rw [outcome_format_eq_layout hn] at h
  exact Document.exists_ink_of_shows Text.coversSpacing_isBlank hunit hd h hshown

/-- The markup of a well-typed node is steady. -/
lemma isSteady_markup (s : Settings) (hn : n.WellTyped) :
    (n.markup s.style).document.IsSteady := by
  have hsteady := isSteady_of_toDocument (outcome_toDocument (s := s) hn)
  exact Document.isSteady_ofList.mp hsteady _ (by simp)

/-- What a tree is formatted as holds, for each block and each element in the tree, what opens it.
The header of a block that gives names says these names between bars; the start tag of an element
says no names at all, whatever names the element gives. -/
theorem format_names (s : Settings) (hn : n.WellTyped) :
    ∃ text, (n.format s).outcome = .ok text ∧
      (∀ {callee params named body inverse : Value} {names : List String}, names ≠ [] →
        (block callee params named (.node (.program body (.list (names.map .str))))
          inverse).Occurs n →
        ∃ before header after : String, text = before ++ header ++ after ∧
          Text.ink Text.isBlank header = Text.ink Text.isBlank
            ("\x7b\x7b#" ++ callee.tokens s.style ++ params.tokens s.style ++
              named.tokens s.style ++ "as|" ++ String.join names ++ "|" ++ "\x7d\x7d")) ∧
      (∀ {tag : String} {attributes modifiers children names : Value},
        (element (.str tag) attributes modifiers children names).Occurs n →
        ∃ before startTag after : String, text = before ++ startTag ++ after ∧
          Text.ink Text.isBlank startTag = Text.ink Text.isBlank
            ("<" ++ tag ++ attributes.tokens s.style ++ modifiers.tokens s.style ++
              if Value.closesItself tag children then "/>" else ">")) := by
  obtain ⟨text, hformat⟩ := exists_format s hn
  refine ⟨text, hformat, ?_, ?_⟩
  · intro callee params named body inverse names hnames hm
    have hwell := hn.of_occurs hm
    -- The header is one part of the document of a block, and it is steady as the whole is.
    have hblock := Document.isSteady_ofList.mp
      (Document.isSteady_grouped.mp (isSteady_markup s hwell))
    cases hwell with
    | block hkinds hcallee hparams hnamed =>
      obtain ⟨before, header, after, htext, hink⟩ := exists_ink_of_occurs hn hm (by simp [kind])
        (hblock _ (by simp)) (Document.shows_block_header _ _ _ _) hformat
      exact ⟨before, header, after, htext,
        hink.trans (ink_header body hkinds hcallee hparams hnamed hnames)⟩
  · intro tag attributes modifiers children names hm
    have hwell := hn.of_occurs hm
    have helement := Document.isSteady_ofList.mp
      (Document.isSteady_grouped.mp (isSteady_markup s hwell))
    cases hwell with
    | element _ hattributeKinds hattributes hmodifierKinds hmodifiers =>
      obtain ⟨before, startTag, after, htext, hink⟩ := exists_ink_of_occurs hn hm (by simp [kind])
        (helement _ (by simp)) (Document.shows_element_startTag _ _ _) hformat
      exact ⟨before, startTag, after, htext,
        hink.trans (ink_startTagMarkup tag hattributes hmodifiers _)⟩

/-- The sample: the header of its block and the start tag of its element. -/
theorem format_names_sample :
    ∃ text, (sample.format { printWidth := 12 }).outcome = .ok text ∧
      (∃ before header after : String, text = before ++ header ++ after ∧
        Text.ink Text.isBlank header = "\x7b\x7b#if\"ab\"nanas|item|\x7d\x7d".toList) ∧
      ∃ before startTag after : String, text = before ++ startTag ++ after ∧
        Text.ink Text.isBlank startTag = "<brclass=\"xy\"/>".toList := by
  obtain ⟨text, htext, hblocks, helements⟩ := format_names { printWidth := 12 } wellTyped_sample
  have hblock : sampleBlock.Occurs sample := .in_body (by simp) (.here _)
  have helement : sampleElement.Occurs sample := .in_body (by simp) (.here _)
  obtain ⟨before, header, after, hsplit, hheader⟩ := hblocks (by simp) hblock
  obtain ⟨before', startTag, after', hsplit', hstartTag⟩ := helements helement
  exact ⟨text, htext, ⟨before, header, after, hsplit, hheader.trans (by decide)⟩,
    before', startTag, after', hsplit', hstartTag.trans (by decide)⟩

/-- An element that gives a name. -/
def namedElement : Node :=
  .element (.str "MyList") (.list ([].map .node)) (.list ([].map .node)) (.list ([].map .node))
    (.list (["item"].map .str))

/-- A template with nothing but this element. -/
def namedTemplate : Node :=
  .program (.list ([namedElement].map .node)) (.list ([].map .str))

/-- The name that an element gives is in no part of the text. -/
theorem format_element_loses_names :
    namedTemplate.WellTyped ∧ namedElement.Occurs namedTemplate ∧
      (namedTemplate.format {}).outcome = .ok "<MyList></MyList>" ∧
      ¬ Text.ink Text.isBlank "as|item|" <:+: Text.ink Text.isBlank "<MyList></MyList>" := by
  have helement : namedElement.WellTyped :=
    .element "MyList" (by simp) (by simp) (by simp) (by simp) (by simp) (by simp) ["item"]
  refine ⟨?_, ?_, rfl, ?_⟩
  · exact .program (by simp [namedElement, kind, Kind.isStatement]) (by simpa using helement) []
  · exact .in_body (by simp) (.here _)
  · intro h
    have hbar : '|' ∈ Text.ink Text.isBlank "<MyList></MyList>" := h.subset (by decide)
    exact absurd hbar (by decide)

end Node

end GlimmerFormat
