import GlimmerFormat.Proofs.Document.Ink
import GlimmerFormat.Proofs.Printing.Markup

/-!
# The ink of what is printed

What a well-typed tree is printed as says exactly what the tree says: the ink of its markup is the
ink of its tokens.  Where printing leaves something out, a blank text or a clause without items,
there is no ink in it.

* `Node.ink_callMarkup`, `Node.ink_blockMarkup`, `Node.ink_elementMarkup`: the ink of what the
  rules with several parts make.
* `Node.ink_markup`: the markup of a well-typed node has the ink of its tokens.
-/

namespace GlimmerFormat

open Markup (QuoteStyle)
open Document (inkAll)

/-! ## Templates -/

namespace Document

variable {blank : Char → Bool}

/-- Parameters by position have their own ink. -/
@[simp] lemma ink_positional (params : List Document) :
    (Markup.positional params).ink blank = inkAll blank params := by
  simp [Markup.positional]

/-- Parameters by name have their own ink. -/
@[simp] lemma ink_named (pairs : Document) : (Markup.named pairs).ink blank = pairs.ink blank := by
  simp [Markup.named]

/-- A call has the ink of its callee and of its parameters, those by position first. -/
@[simp] lemma ink_call (callee positional named : Document) :
    (Markup.call callee positional named).ink blank =
      callee.ink blank ++ positional.ink blank ++ named.ink blank := by
  simp [Markup.call]

/-- A parameter by name has an equals sign between its key and its value. -/
@[simp] lemma ink_pair (key value : Document) :
    (Markup.pair key value).ink blank = key.ink blank ++ Text.ink blank "=" ++ value.ink blank := by
  simp [Markup.pair]

/-- All parameters by name have the ink of each. -/
@[simp] lemma ink_pairs (docs : List Document) :
    (Markup.pairs docs).ink blank = inkAll blank docs := by
  simp [Markup.pairs]

/-- A call inside another one has round brackets around it. -/
@[simp] lemma ink_subexpression (call : Document) :
    (Markup.subexpression call).ink blank =
      Text.ink blank "(" ++ call.ink blank ++ Text.ink blank ")" := by
  simp [Markup.subexpression]

/-- A modifier has two brackets around its call. -/
@[simp] lemma ink_modifier (call : Document) :
    (Markup.modifier call).ink blank =
      Text.ink blank "\x7b\x7b" ++ call.ink blank ++ Text.ink blank "\x7d\x7d" := by
  simp [Markup.modifier]

/-- A call whose value is inserted has two brackets around it, or three if it is not escaped. -/
@[simp] lemma ink_mustache (escaped : Bool) (call : Document) :
    (Markup.mustache escaped call).ink blank =
      if escaped then Text.ink blank "\x7b\x7b" ++ call.ink blank ++ Text.ink blank "\x7d\x7d"
      else Text.ink blank "\x7b\x7b\x7b" ++ call.ink blank ++ Text.ink blank "\x7d\x7d\x7d" := by
  cases escaped <;> simp [Markup.mustache]

/-- A comment has its brackets with the mark, and the ink of its text. -/
@[simp] lemma ink_comment (text : String) :
    (Markup.comment text).ink Text.isBlank =
      Text.ink Text.isBlank "\x7b\x7b!" ++ Text.ink Text.isBlank text ++
        Text.ink Text.isBlank "\x7d\x7d" := by
  simp [Markup.comment]

/-- A quoted value has double quotes around its parts. -/
@[simp] lemma ink_concat (parts : List Document) :
    (Markup.concat parts).ink blank =
      Text.ink blank "\"" ++ inkAll blank parts ++ Text.ink blank "\"" := by
  simp [Markup.concat, Markup.quote]

/-- An attribute has an equals sign before its value, and quotes around plain text. -/
@[simp] lemma ink_attr (name : Document) (quoted : Bool) (value : Document) :
    (Markup.attr name quoted value).ink blank =
      name.ink blank ++ Text.ink blank "=" ++
        if quoted then Text.ink blank "\"" ++ value.ink blank ++ Text.ink blank "\""
        else value.ink blank := by
  cases quoted <;> simp [Markup.attr, Markup.quote]

/-- The names of a block stand between bars. -/
@[simp] lemma ink_blockParams (names : List Document) :
    (Markup.blockParams names).ink Text.isBlank =
      Text.ink Text.isBlank "as|" ++ inkAll Text.isBlank names ++ Text.ink Text.isBlank "|" := by
  have has : Text.ink Text.isBlank "as |" = Text.ink Text.isBlank "as|" := by decide
  simp [Markup.blockParams, has]

/-- The header of a block has its call and its names in brackets with the mark of a block. -/
@[simp] lemma ink_blockHeader (call names : Document) :
    (Markup.blockHeader call names).ink blank =
      Text.ink blank "\x7b\x7b#" ++ call.ink blank ++ names.ink blank ++
        Text.ink blank "\x7d\x7d" := by
  simp [Markup.blockHeader]

/-- The body of a block has the ink of its statements. -/
@[simp] lemma ink_blockBody (statements : Document) :
    (Markup.blockBody statements).ink blank = statements.ink blank := by
  simp [Markup.blockBody]

/-- The inverse of a block has its mark before its body. -/
@[simp] lemma ink_blockInverse (body : Document) :
    (Markup.blockInverse body).ink blank =
      Text.ink blank "\x7b\x7belse\x7d\x7d" ++ body.ink blank := by
  simp [Markup.blockInverse]

/-- A block has the ink of its parts in order, and of its callee in the end. -/
@[simp] lemma ink_block (header body inverse callee : Document) :
    (Markup.block header body inverse callee).ink blank =
      header.ink blank ++ body.ink blank ++ inverse.ink blank ++ Text.ink blank "\x7b\x7b/" ++
        callee.ink blank ++ Text.ink blank "\x7d\x7d" := by
  simp [Markup.block]

/-- A space has no ink. -/
lemma ink_space : Text.ink Text.isBlank " " = [] := by
  decide

/-- The attributes of an element have their own ink. -/
@[simp] lemma ink_attributes (docs : List Document) :
    (Markup.attributes docs).ink Text.isBlank = inkAll Text.isBlank docs := by
  simp [Markup.attributes, ink_space]

/-- The modifiers of an element have their own ink. -/
@[simp] lemma ink_modifiers (afterAttributes : Bool) (docs : List Document) :
    (Markup.modifiers afterAttributes docs).ink Text.isBlank = inkAll Text.isBlank docs := by
  cases afterAttributes <;> simp [Markup.modifiers, ink_space]

/-- A start tag has its name, its attributes and its modifiers in angle brackets. -/
@[simp] lemma ink_startTag (name : String) (attributes modifiers : Document) (selfCloses : Bool) :
    (Markup.startTag name attributes modifiers selfCloses).ink Text.isBlank =
      Text.ink Text.isBlank "<" ++ Text.ink Text.isBlank name ++ attributes.ink Text.isBlank ++
        modifiers.ink Text.isBlank ++
        if selfCloses then Text.ink Text.isBlank "/>" else Text.ink Text.isBlank ">" := by
  have hmark : Text.ink Text.isBlank " />" = Text.ink Text.isBlank "/>" := by decide
  cases selfCloses <;> simp [Markup.startTag, hmark]

/-- Children have the ink of the statements that they are. -/
@[simp] lemma ink_children (statements : Document) :
    (Markup.children statements).ink blank = statements.ink blank := by
  simp [Markup.children]

/-- An end tag has its name in angle brackets with the mark of an end. -/
@[simp] lemma ink_endTag (name : String) :
    (Markup.endTag name).ink blank =
      Text.ink blank "</" ++ Text.ink blank name ++ Text.ink blank ">" := by
  simp [Markup.endTag]

/-- An element has the ink of its tags and of what stands between them. -/
@[simp] lemma ink_element (startTag children endTag : Document) :
    (Markup.element startTag children endTag).ink blank =
      startTag.ink blank ++ children.ink blank ++ endTag.ink blank := by
  simp [Markup.element]

/-- Something that is made of parts which are not there leaves no ink. -/
lemma ink_ifAny {count : Except Fault Nat} {d : Document} {k : Nat} (hcount : count = .ok k)
    (hnone : k = 0 → d.ink blank = []) : (ifAny count d).ink blank = d.ink blank := by
  subst hcount
  cases k with
  | zero => rw [hnone rfl]; rfl
  | succ k => rfl

end Document

namespace Node

variable {style : QuoteStyle}

/-- The markup of a node has the ink of its tokens. -/
def SaysTokens (style : QuoteStyle) (n : Node) : Prop :=
  (n.markup style).document.ink Text.isBlank = Text.ink Text.isBlank (n.tokens style)

/-! ## Lists of nodes -/

/-- Items printed one after the other say what the items say. -/
lemma ink_markupAll {ns : List Node} (h : ∀ n ∈ ns, n.SaysTokens style) :
    inkAll Text.isBlank (Value.markupAll style (ns.map .node)) =
      Text.ink Text.isBlank (Value.tokensAll style (ns.map .node)) := by
  induction ns with
  | nil => rfl
  | cons n ns ih =>
    have hfirst : ((Value.node n).markup style).ink Text.isBlank =
        Text.ink Text.isBlank ((Value.node n).tokens style) := h n (by simp)
    have hothers := ih fun m hm => h m (by simp [hm])
    rw [List.map_cons, Value.markupAll, Value.tokensAll, Document.inkAll_cons, hothers,
      Text.ink_append, hfirst]

/-- Items in a field, if there are any, say what the items say. -/
lemma ink_ifAny_markupItems {ns : List Node} (markup : List Document → Document)
    (hmarkup : ∀ ds, (markup ds).ink Text.isBlank = inkAll Text.isBlank ds)
    (h : ∀ n ∈ ns, n.SaysTokens style) :
    (Document.ifAny (Value.list (ns.map .node)).count
      (markup ((Value.list (ns.map .node)).markupItems style))).ink Text.isBlank =
      Text.ink Text.isBlank ((Value.list (ns.map .node)).tokens style) := by
  have hcount : (Value.list (ns.map .node)).count = .ok (ns.map Value.node).length := rfl
  have hitems := ink_markupAll h
  rw [Document.ink_ifAny hcount, hmarkup]
  · exact hitems
  · intro hzero
    obtain rfl : ns = [] := by simpa using hzero
    rw [hmarkup]
    rfl

/-- A call says what its parts say. -/
lemma ink_callMarkup {callee named : Node} {params : List Node}
    (hwell : named.WellTyped) (hkind : named.kind = .hash) (hcallee : callee.SaysTokens style)
    (hparams : ∀ p ∈ params, p.SaysTokens style) (hnamed : named.SaysTokens style) :
    (callMarkup ((Value.node callee).markup style) (.list (params.map .node))
      ((Value.list (params.map .node)).markupItems style) (.node named)
      ((Value.node named).markup style)).ink Text.isBlank =
      Text.ink Text.isBlank (callee.tokens style) ++
        Text.ink Text.isBlank ((Value.list (params.map .node)).tokens style) ++
        Text.ink Text.isBlank (named.tokens style) := by
  have hpositional := ink_ifAny_markupItems Markup.positional Document.ink_positional hparams
  obtain ⟨pairs, rfl⟩ := hwell.exists_hash hkind
  have hcount : (Value.node (.hash (.list (pairs.map .node)))).pairCount =
      .ok (pairs.map Value.node).length := rfl
  have hbyName : (Document.ifAny (Value.node (.hash (.list (pairs.map .node)))).pairCount
      (Markup.named ((Value.node (.hash (.list (pairs.map .node)))).markup style))).ink
        Text.isBlank = Text.ink Text.isBlank ((hash (.list (pairs.map .node))).tokens style) := by
    rw [Document.ink_ifAny hcount, Document.ink_named]
    · exact hnamed
    · intro hzero
      obtain rfl : pairs = [] := by simpa using hzero
      rfl
  rw [callMarkup, Document.ink_call, hpositional, hbyName, ← hcallee]
  rfl

/-! ## Statements -/

/-- A blank text says nothing. -/
lemma ink_eq_nil_of_isBlankNode (style : QuoteStyle) {n : Node} (hwell : n.WellTyped)
    (h : (Value.node n).isBlankNode = .ok true) :
    Text.ink Text.isBlank (n.tokens style) = [] := by
  cases hwell with
  | text chars =>
    have hblank : Text.isBlankText chars = true := by simpa [Value.isBlankNode] using h
    rw [Text.ink_eq_nil_iff]
    exact List.all_eq_true.mp hblank
  | _ => cases h

/-- Statements say what they say without the blank texts among them. -/
lemma ink_markupBody {body : List Node} (hwell : ∀ n ∈ body, n.WellTyped)
    (h : ∀ n ∈ body, n.SaysTokens style) (after : Bool) :
    inkAll Text.isBlank (Value.markupBody style after (body.map .node)) =
      Text.ink Text.isBlank (Value.tokensAll style (body.map .node)) := by
  induction body generalizing after with
  | nil => rfl
  | cons n ns ih =>
    have hothers := ih (fun m hm => hwell m (by simp [hm])) fun m hm => h m (by simp [hm])
    have hfirst : ((Value.node n).markup style).ink Text.isBlank =
        Text.ink Text.isBlank ((Value.node n).tokens style) := h n (by simp)
    obtain ⟨blank, hblank⟩ := Value.exists_isBlankNode (hwell n (by simp))
    rw [List.map_cons, Value.markupBody, Value.tokensAll, Text.ink_append, hblank]
    cases blank with
    | true =>
      have hnothing : Text.ink Text.isBlank ((Value.node n).tokens style) = [] :=
        ink_eq_nil_of_isBlankNode style (hwell n (by simp)) hblank
      rw [hnothing]
      exact hothers after
    | false =>
      have hseparator : inkAll Text.isBlank
          (if after then [Markup.separator (Value.node n).isTextNode] else []) = [] := by
        cases after with
        | false => rfl
        | true => cases (Value.node n).isTextNode <;> rfl
      have hreflowed : ((Value.node n).reflowed ((Value.node n).markup style)).ink Text.isBlank =
          Text.ink Text.isBlank ((Value.node n).tokens style) := by
        cases hwell n (by simp) with
        | text chars => exact Document.ink_paragraph chars
        | _ => exact hfirst
      rw [Fault.yes, if_neg (by simp), Document.inkAll_append, hseparator, Document.inkAll_cons,
        hreflowed, hothers true]
      rfl

/-- Where no statement is more than blank text, nothing is said. -/
lemma ink_eq_nil_of_anyPresent (style : QuoteStyle) {ns : List Node}
    (hwell : ∀ n ∈ ns, n.WellTyped)
    (h : Value.anyPresent (ns.map .node) = .ok false) :
    Text.ink Text.isBlank (Value.tokensAll style (ns.map .node)) = [] := by
  induction ns with
  | nil => rfl
  | cons n ns ih =>
    obtain ⟨blank, hblank⟩ := Value.exists_isBlankNode (hwell n (by simp))
    rw [List.map_cons, Value.anyPresent, hblank] at h
    cases blank with
    | false => cases h
    | true =>
      have hfirst := ink_eq_nil_of_isBlankNode style (hwell n (by simp)) hblank
      have hothers := ih (fun m hm => hwell m (by simp [hm])) h
      rw [List.map_cons, Value.tokensAll, Text.ink_append, hothers, Value.tokens, hfirst]
      rfl

/-! ## Blocks and elements -/

/-- The body of a program says what the program says. -/
lemma ink_bodyMarkup {content : Node} (hwell : content.WellTyped)
    (hkind : content.kind = .program) (h : content.SaysTokens style) :
    (bodyMarkup (.node content) ((Value.node content).markup style)).ink Text.isBlank =
      Text.ink Text.isBlank (content.tokens style) := by
  obtain ⟨body, names, rfl⟩ := hwell.exists_program hkind
  have hcount : (Value.node (.program (.list (body.map .node))
      (.list (names.map .str)))).bodyCount = .ok (body.map Value.node).length := rfl
  have hbody : (Markup.blockBody ((Value.node (.program (.list (body.map .node))
      (.list (names.map .str)))).markup style)).ink Text.isBlank =
      Text.ink Text.isBlank ((program (.list (body.map .node))
        (.list (names.map .str))).tokens style) := by
    rw [Document.ink_blockBody]
    exact h
  rw [bodyMarkup, Document.ink_ifAny hcount, hbody]
  intro hzero
  obtain rfl : body = [] := by simpa using hzero
  rw [hbody]
  rfl

/-- The names that a program gives are written between bars. -/
lemma ink_markupNames (body : Value) (names : List String) :
    (Value.node (.program body (.list (names.map .str)))).markupNames.ink Text.isBlank =
      Text.ink Text.isBlank
        (Value.node (.program body (.list (names.map .str)))).blockNames := by
  have hnames : ∀ names : List String, inkAll Text.isBlank (names.map .ofString) =
      Text.ink Text.isBlank (String.join names) := by
    intro names
    induction names with
    | nil => rfl
    | cons name names ih =>
      rw [List.map_cons, Document.inkAll_cons, Document.ink_ofString, ih, String.join_cons,
        Text.ink_append]
  rw [Value.markupNames, Value.blockNames, Value.texts_map_str]
  cases hempty : names with
  | nil => rfl
  | cons name others =>
    have hsome : ∀ d : Document,
        Document.ifAny (Value.list ((name :: others).map .str)).count d = d := fun _ => rfl
    have hbars : ¬ (name :: others).isEmpty = true := Bool.false_ne_true
    rw [hsome, Document.ink_blockParams, hnames, if_neg hbars, Text.ink_append, Text.ink_append]

/-- A block says what its parts say, and the name of its callee twice. -/
lemma ink_blockMarkup {callee content : Node} {inverse : Option Node} {call : Document}
    {callTokens : List Char} (hcallee : callee.SaysTokens style)
    (hcall : call.ink Text.isBlank = callTokens)
    (hcontentWell : content.WellTyped) (hcontentKind : content.kind = .program)
    (hcontent : content.SaysTokens style)
    (hinverseWell : ∀ n ∈ inverse, n.WellTyped) (hinverseKind : ∀ n ∈ inverse, n.kind = .program)
    (hinverse : ∀ n ∈ inverse, n.SaysTokens style) :
    (blockMarkup ((Value.node callee).markup style) call (.node content)
      ((Value.node content).markup style) (inverse.elim .null .node)
      ((inverse.elim Value.null .node).markup style)).ink Text.isBlank =
      Text.ink Text.isBlank "\x7b\x7b#" ++ callTokens ++
        Text.ink Text.isBlank (Value.node content).blockNames ++ Text.ink Text.isBlank "\x7d\x7d" ++
        Text.ink Text.isBlank (content.tokens style) ++
        (inverse.elim [] fun n =>
          Text.ink Text.isBlank "\x7b\x7belse\x7d\x7d" ++ Text.ink Text.isBlank (n.tokens style)) ++
        Text.ink Text.isBlank "\x7b\x7b/" ++ Text.ink Text.isBlank (callee.tokens style) ++
        Text.ink Text.isBlank "\x7d\x7d" := by
  have hbody := ink_bodyMarkup hcontentWell hcontentKind hcontent
  have hcalleeInk : ((Value.node callee).markup style).ink Text.isBlank =
      Text.ink Text.isBlank (callee.tokens style) := hcallee
  have hnames : (Value.node content).markupNames.ink Text.isBlank =
      Text.ink Text.isBlank (Value.node content).blockNames := by
    obtain ⟨statements, names, rfl⟩ := hcontentWell.exists_program hcontentKind
    exact ink_markupNames _ names
  have hotherwise : (inverseMarkup (inverse.elim .null .node)
      ((inverse.elim Value.null .node).markup style)).ink Text.isBlank =
      inverse.elim [] fun n =>
        Text.ink Text.isBlank "\x7b\x7belse\x7d\x7d" ++
          Text.ink Text.isBlank (n.tokens style) := by
    cases inverse with
    | none => rfl
    | some n =>
      have hinside := ink_bodyMarkup (hinverseWell n rfl) (hinverseKind n rfl) (hinverse n rfl)
      exact (Document.ink_blockInverse _).trans (congrArg _ hinside)
  rw [blockMarkup, Document.ink_block, Document.ink_blockHeader, hcall, hnames, hbody, hotherwise,
    hcalleeInk]

/-- The children of an element, where one is more than blank text, say what they say. -/
lemma ink_childrenMarkup {children : List Node} (hwell : ∀ n ∈ children, n.WellTyped)
    (h : ∀ n ∈ children, n.SaysTokens style) :
    (if Fault.yes (Value.list (children.map .node)).hasContent
      then Markup.children ((Value.list (children.map .node)).markupStatements style)
      else .empty).ink Text.isBlank =
      Text.ink Text.isBlank ((Value.list (children.map .node)).tokens style) := by
  obtain ⟨hasContent, hcontent⟩ := Value.exists_anyPresent hwell
  have hhas : (Value.list (children.map .node)).hasContent = .ok hasContent := hcontent
  have hstatements := ink_markupBody hwell h false
  rw [hhas]
  cases hasContent with
  | true =>
    rw [Fault.yes, if_pos rfl, Document.ink_children, Value.markupStatements, Document.ink_ofList]
    exact hstatements
  | false =>
    have hnothing := ink_eq_nil_of_anyPresent style hwell hcontent
    rw [Fault.yes, if_neg (by simp), Value.tokens, hnothing]
    rfl

/-- An element says what its parts say, and its name twice unless it closes itself. -/
lemma ink_elementMarkup (tag : String) {attributes modifiers children : List Node}
    (hattributes : ∀ n ∈ attributes, n.SaysTokens style)
    (hmodifiers : ∀ n ∈ modifiers, n.SaysTokens style)
    (hchildrenWell : ∀ n ∈ children, n.WellTyped)
    (hchildren : ∀ n ∈ children, n.SaysTokens style) (blockParams : Value) :
    (elementMarkup tag (.list (attributes.map .node))
      ((Value.list (attributes.map .node)).markupItems style) (.list (modifiers.map .node))
      ((Value.list (modifiers.map .node)).markupItems style) (.list (children.map .node))
      ((Value.list (children.map .node)).markupStatements style)).ink Text.isBlank =
      Text.ink Text.isBlank ((Node.element (.str tag) (.list (attributes.map .node))
        (.list (modifiers.map .node)) (.list (children.map .node)) blockParams).tokens style) := by
  have hattributesInk := ink_ifAny_markupItems _ Document.ink_attributes hattributes
  have hmodifiersInk := ink_ifAny_markupItems _
    (Document.ink_modifiers (Value.list (attributes.map .node)).isTruthy) hmodifiers
  have hchildrenInk := ink_childrenMarkup hchildrenWell hchildren
  have hname : (Value.str tag).string = tag := rfl
  rw [elementMarkup, Document.ink_element, Document.ink_startTag, hattributesInk, hmodifiersInk,
    hchildrenInk, Node.tokens, hname]
  cases hcloses : Value.closesItself tag (.list (children.map .node)) with
  | true =>
    -- What closes itself has no children, so nothing stands where they would.
    obtain rfl : children = [] := by
      simpa [Value.closesItself, Value.isTruthy] using (Bool.and_eq_true_iff.mp hcloses).2
    have hnothing : Text.ink Text.isBlank ((Value.list ([].map .node)).tokens style) = [] := rfl
    simp only [if_true, hnothing, Document.ink_empty, Text.ink_append, List.append_nil,
      List.append_assoc]
  | false =>
    simp only [Bool.false_eq_true, if_false, Document.ink_endTag, Text.ink_append,
      List.append_assoc]

/-! ## Every kind of node -/

/-- What a well-typed node is printed as says what the node says. -/
theorem ink_markup {n : Node} (h : n.WellTyped) : n.SaysTokens style := by
  induction h with
  | path whole parts => exact Document.ink_ofString _
  | string s => exact Document.ink_ofString _
  | number h => exact Document.ink_ofString _
  | boolean b => exact Document.ink_ofString _
  | null => exact Document.ink_ofString _
  | text chars => exact Document.ink_ofString _
  | @pair key value hkind hvalue ih =>
    have hvalueInk : ((Value.node value).markup style).ink Text.isBlank =
        Text.ink Text.isBlank ((Value.node value).tokens style) := ih
    rw [SaysTokens, markup, Part.document_doc, Document.ink_pair, hvalueInk, tokens,
      Text.ink_append, Text.ink_append]
    exact congrArg (· ++ _ ++ _) (Document.ink_ofString key)
  | hash hkinds hpairs ih =>
    rw [SaysTokens, markup, Part.document_doc, Document.ink_pairs]
    exact ink_markupAll ih
  | subexpression hkinds hcallee hparams hnamed ihc ihp ihn =>
    have hcall := ink_callMarkup hnamed hkinds.named ihc ihp ihn
    rw [SaysTokens, markup, Part.document_doc, Document.ink_subexpression, hcall, tokens]
    simp only [Text.ink_append, Value.tokens, List.append_assoc]
  | mustache hkinds hcallee hparams hnamed escaped ihc ihp ihn =>
    have hcall := ink_callMarkup hnamed hkinds.named ihc ihp ihn
    rw [SaysTokens, markup, Part.document_doc, Document.ink_mustache, hcall, tokens]
    cases escaped with
    | true => simp only [Value.isTruthy, if_true, Text.ink_append, Value.tokens, List.append_assoc]
    | false =>
      simp only [Value.isTruthy, Bool.false_eq_true, if_false, Text.ink_append, Value.tokens,
        List.append_assoc]
  | modifier hkinds hcallee hparams hnamed ihc ihp ihn =>
    have hcall := ink_callMarkup hnamed hkinds.named ihc ihp ihn
    rw [SaysTokens, markup, Part.document_doc, Document.ink_modifier, hcall, tokens]
    simp only [Text.ink_append, Value.tokens, List.append_assoc]
  | comment text =>
    rw [SaysTokens, markup, Part.document_doc, Document.ink_comment, tokens, Text.ink_append,
      Text.ink_append, Value.string]
  | concat hkinds hparts ih =>
    have hpartsInk := ink_markupAll ih
    rw [SaysTokens, markup, Part.document_doc, Document.ink_concat, Value.markupItems, hpartsInk,
      tokens, Text.ink_append, Text.ink_append]
    rfl
  | @attr name value hkind hvalue ih =>
    have hvalueInk : ((Value.node value).markup style).ink Text.isBlank =
        Text.ink Text.isBlank ((Value.node value).tokens style) := ih
    have hname : (Value.str name).document.ink Text.isBlank = Text.ink Text.isBlank name :=
      Document.ink_ofString name
    rw [SaysTokens, markup, Part.document_doc, Document.ink_attr, hvalueInk, hname, tokens]
    cases hquoted : (Value.node value).isTextNode with
    | true => simp only [if_true, Text.ink_append, Value.string, List.append_assoc]
    | false =>
      simp only [Bool.false_eq_true, if_false, Text.ink_append, Value.string, List.append_assoc]
  | program hkinds hbody blockParams ih =>
    rw [SaysTokens, markup, Part.document_doc, Value.markupStatements, Document.ink_ofList]
    exact ink_markupBody hbody ih false
  | @block callee named content params inverse hkinds hcallee hparams hnamed hcontentKind hcontent
      hinverseKind hinverse ihc ihp ihn ihcontent ihinverse =>
    have hcall := ink_callMarkup hnamed hkinds.named ihc ihp ihn
    have hblock := ink_blockMarkup ihc hcall hcontent hcontentKind ihcontent hinverse hinverseKind
      ihinverse
    -- A block says that something is shown otherwise only if it has an inverse.
    rw [SaysTokens, markup, Part.document_doc, hblock]
    cases inverse with
    | none =>
      rw [Option.elim_none, Option.elim_none, tokens]
      simp only [Text.ink_append, Text.ink_empty, Value.tokens, List.append_assoc,
        List.nil_append]
    | some n =>
      rw [Option.elim_some, Option.elim_some, tokens]
      · simp only [Text.ink_append, Value.tokens, List.append_assoc]
      · intro h
        cases h
  | element tag hattributeKinds hattributes hmodifierKinds hmodifiers hchildKinds hchildren
      blockParams iha ihm ihc =>
    exact ink_elementMarkup tag iha ihm hchildren ihc _

end Node

end GlimmerFormat
