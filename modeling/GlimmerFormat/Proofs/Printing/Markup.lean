import GlimmerFormat.Proofs.Printing.Outcomes
import GlimmerFormat.Proofs.Traced
import GlimmerFormat.Proofs.Tree.Tokens

/-!
# The markup of well-typed trees

Printing reads fields that may hold anything, goes down the tree and keeps a log.  Of a well-typed
tree none of this matters: what it is printed as is a plain recursion over the tree, `Node.markup`,
and properties of it are properties of what is printed.

* `Node.outcome_callDocument`, `Node.outcome_blockDocument`, `Node.outcome_elementDocument`: the
  rules with several parts print their markup.
* `Node.outcome_print`: a well-typed node is printed as its markup, at every depth.
-/

namespace GlimmerFormat

open Markup (QuoteStyle)

/-! ## Markup -/

/-- The answer to a question that can be asked, and no if it cannot. -/
def Fault.yes : Except Fault Bool → Bool
  | .ok b => b
  | .error _ => false

/-- A document, if there is something that it is made of. -/
def Document.ifAny : Except Fault Nat → Document → Document
  | .ok (_ + 1), d => d
  | _, _ => .empty

/-- A call, from what its parts are printed as. -/
def callMarkup (callee : Document) (params : Value) (positional : List Document) (named : Value)
    (byName : Document) : Document :=
  Markup.call callee (.ifAny params.count (Markup.positional positional))
    (.ifAny named.pairCount (Markup.named byName))

/-- The names that a program gives to what is passed on to it. -/
def Value.markupNames : Value → Document
  | .node (.program _ names) =>
    .ifAny names.count (Markup.blockParams (names.texts.map .ofString))
  | _ => .empty

/-- The body of a program on lines of its own, where it has statements. -/
def bodyMarkup (content : Value) (statements : Document) : Document :=
  .ifAny content.bodyCount (Markup.blockBody statements)

/-- What a block shows otherwise, where there is something. -/
def inverseMarkup (inverse : Value) (statements : Document) : Document :=
  match inverse with
  | .null => .empty
  | _ => Markup.blockInverse (bodyMarkup inverse statements)

/-- A block, from what its parts are printed as. -/
def blockMarkup (callee call : Document) (content : Value) (statements : Document)
    (inverse : Value) (others : Document) : Document :=
  Markup.block (Markup.blockHeader call content.markupNames) (bodyMarkup content statements)
    (inverseMarkup inverse others) callee

/-- An element, from what its parts are printed as. -/
def elementMarkup (tag : String) (attributes : Value) (attributeDocs : List Document)
    (modifiers : Value) (modifierDocs : List Document) (children : Value)
    (statements : Document) : Document :=
  Markup.element
    (Markup.startTag tag (.ifAny attributes.count (Markup.attributes attributeDocs))
      (.ifAny modifiers.count (Markup.modifiers attributes.isTruthy modifierDocs))
      (Value.closesItself tag children))
    (if Fault.yes children.hasContent then Markup.children statements else .empty)
    (if Value.closesItself tag children then .empty else Markup.endTag tag)

/-- A statement, from what it is printed as: text is reflowed. -/
def Value.reflowed (printed : Document) : Value → Document
  | .node (.text (.str s)) => .paragraph s
  | _ => printed

mutual

/-- What a value is printed as where a node belongs. -/
def Value.markup (style : QuoteStyle) : Value → Document
  | .node n => (n.markup style).document
  | _ => .empty

/-- What values are printed as one after the other. -/
def Value.markupAll (style : QuoteStyle) : List Value → List Document
  | [] => []
  | v :: vs => v.markup style :: Value.markupAll style vs

/-- What the items of a list are printed as. -/
def Value.markupItems (style : QuoteStyle) : Value → List Document
  | .list items => Value.markupAll style items
  | _ => []

/-- What statements are printed as, with a separator before each but the first of all. -/
def Value.markupBody (style : QuoteStyle) (after : Bool) : List Value → List Document
  | [] => []
  | v :: vs =>
    if Fault.yes v.isBlankNode then Value.markupBody style after vs
    else (if after then [Markup.separator v.isTextNode] else []) ++
      v.reflowed (v.markup style) :: Value.markupBody style true vs

/-- What the statements in a list are printed as together. -/
def Value.markupStatements (style : QuoteStyle) : Value → Document
  | .list items => .ofList (Value.markupBody style false items)
  | _ => .empty

/-- What a node is printed as. -/
def Node.markup (style : QuoteStyle) : Node → Part
  | .path _ parts => .str (".".intercalate parts.texts)
  | .string value => .str (style.literal value.string)
  | .number value => .str value.numberText
  | .boolean value => .str (if value.isTruthy then "true" else "false")
  | .null => .str "null"
  | .pair key value => .doc (Markup.pair key.document (value.markup style))
  | .hash pairs => .doc (Markup.pairs (pairs.markupItems style))
  | .subexpression callee params named =>
    .doc (Markup.subexpression (callMarkup (callee.markup style)
      params (params.markupItems style) named (named.markup style)))
  | .text chars => chars.part
  | .mustache callee params named escaped =>
    .doc (Markup.mustache escaped.isTruthy (callMarkup (callee.markup style)
      params (params.markupItems style) named (named.markup style)))
  | .comment value => .doc (Markup.comment value.string)
  | .modifier callee params named =>
    .doc (Markup.modifier (callMarkup (callee.markup style)
      params (params.markupItems style) named (named.markup style)))
  | .concat parts => .doc (Markup.concat (parts.markupItems style))
  | .attr name value => .doc (Markup.attr name.document value.isTextNode (value.markup style))
  | .program body _ => .doc (body.markupStatements style)
  | .block callee params named content inverse =>
    .doc (blockMarkup (callee.markup style)
      (callMarkup (callee.markup style) params (params.markupItems style) named
        (named.markup style))
      content (content.markup style) inverse (inverse.markup style))
  | .element tag attributes modifiers children _ =>
    .doc (elementMarkup tag.string attributes (attributes.markupItems style)
      modifiers (modifiers.markupItems style) children (children.markupStatements style))

end

/-! ## Printing is markup -/

open Traced

/-- What is printed only where there is something to print. -/
lemma Logged.outcome_ifAny {count : Except Fault Nat} {printed : Logged Document} {k : Nat}
    {d : Document} (hcount : count = .ok k) (hprinted : printed.outcome = .ok d) :
    (Logged.ifAny count printed).outcome = .ok (Document.ifAny count d) := by
  subst hcount
  cases k with
  | zero => rfl
  | succ k => exact outcome_bind_of_ok (outcome_ofExcept _) hprinted

/-- A literal stands between quotes, or as it is if it holds a quote. -/
lemma Value.quotedLiteral_str (style : QuoteStyle) (s : String) :
    (Value.str s).quotedLiteral style.mark = .ok (.str (style.literal s)) := by
  have hquotes : (s.toList.any containsQuote.isQuote) = Text.holdsQuote s := rfl
  unfold QuoteStyle.literal
  cases h : Text.holdsQuote s with
  | true =>
    rw [h] at hquotes
    simp [quotedLiteral, containsQuote, hquotes, bind, Except.bind, pure, Except.pure]
  | false =>
    rw [h] at hquotes
    simp [quotedLiteral, containsQuote, hquotes, text, text?, QuoteStyle.around, bind,
      Except.bind, pure, Except.pure]

namespace Node

variable {style : QuoteStyle}

/-- At every depth a node is printed as its markup. -/
def PrintsMarkup (style : QuoteStyle) (n : Node) : Prop :=
  ∀ depth, (n.print style depth).outcome = .ok (n.markup style)

/-- A node that is printed as its markup, where a value is printed. -/
lemma PrintsMarkup.outcome_value {n : Node} (h : n.PrintsMarkup style) (depth : Nat) :
    ((Value.node n).print style depth).outcome = .ok (n.markup style) :=
  outcome_bind_of_ok (outcome_note _) (h depth)

/-- Nodes are printed one after the other as the markup of each. -/
lemma markupAll_map_node (ns : List Node) :
    Value.markupAll style (ns.map .node) = (ns.map (markup style)).map Part.document := by
  induction ns with
  | nil => rfl
  | cons n ns ih => rw [List.map_cons, Value.markupAll, ih]; rfl

/-- Nodes in a list, printed one after the other. -/
lemma outcome_printAll {ns : List Node} (h : ∀ n ∈ ns, n.PrintsMarkup style) (depth : Nat) :
    (Value.printAll style depth (ns.map .node)).outcome = .ok (ns.map (markup style)) := by
  induction ns with
  | nil => rfl
  | cons n ns ih =>
    have hfirst := (h n (by simp)).outcome_value depth
    have hothers := ih fun m hm => h m (by simp [hm])
    exact outcome_bind_of_ok hfirst (outcome_bind_of_ok hothers rfl)

/-- Nodes in a field, if there are any, with some markup around them. -/
lemma outcome_ifAny_printItems {ns : List Node} (markup : List Document → Document)
    (h : ∀ n ∈ ns, n.PrintsMarkup style) (depth : Nat) (kind : Kind) (field : String) :
    (Logged.ifAny (Value.list (ns.map .node)).count do
      return markup ((← (Value.list (ns.map .node)).printItems style depth kind field).map
        Part.document)).outcome =
      .ok (.ifAny (Value.list (ns.map .node)).count
        (markup ((Value.list (ns.map .node)).markupItems style))) := by
  have hprinted := outcome_printAll h depth
  have hcount : (Value.list (ns.map .node)).count = .ok (ns.map Value.node).length := rfl
  refine Logged.outcome_ifAny hcount ?_
  rw [Value.markupItems, markupAll_map_node]
  exact outcome_bind_of_ok hprinted rfl

/-- A call is printed as its markup if its nodes are. -/
lemma outcome_callDocument {callee named : Node} {params : List Node} (depth : Nat) (kind : Kind)
    (hkinds : CallKinds callee params named) (hwell : named.WellTyped)
    (hcallee : callee.PrintsMarkup style) (hparams : ∀ p ∈ params, p.PrintsMarkup style)
    (hnamed : named.PrintsMarkup style) :
    (GlimmerFormat.callDocument ((Value.node callee).print style (depth + 1))
      (.list (params.map .node))
      ((Value.list (params.map .node)).printItems style (depth + 2) kind "params")
      (.node named) ((Value.node named).print style (depth + 1))).outcome =
      .ok (callMarkup ((Value.node callee).markup style) (.list (params.map .node))
        ((Value.list (params.map .node)).markupItems style) (.node named)
        ((Value.node named).markup style)) := by
  obtain ⟨pairs, rfl⟩ := hwell.exists_hash hkinds.named
  have hhead := hcallee.outcome_value (depth + 1)
  have hpositional := outcome_ifAny_printItems Markup.positional hparams (depth + 2) kind "params"
  have hpairs := hnamed.outcome_value (depth + 1)
  have hcount : (Value.node (.hash (.list (pairs.map .node)))).pairCount =
      .ok (pairs.map Value.node).length := rfl
  have hbyName := Logged.outcome_ifAny hcount
    (outcome_bind_of_ok (f := fun p => pure (Markup.named p.document)) hpairs rfl)
  exact outcome_bind_of_ok hhead
    (outcome_bind_of_ok hpositional (outcome_bind_of_ok hbyName rfl))

/-! ## Statements -/

/-- Statements are printed as their markup, one after the other. -/
lemma outcome_printBody {body : List Node} (hwell : ∀ n ∈ body, n.WellTyped)
    (h : ∀ n ∈ body, n.PrintsMarkup style) (depth : Nat) (after : Bool) :
    (Value.printBody style depth after (body.map .node)).outcome =
      .ok (Value.markupBody style after (body.map .node)) := by
  induction body generalizing after with
  | nil => rfl
  | cons n ns ih =>
    have hothers := ih (fun m hm => hwell m (by simp [hm])) fun m hm => h m (by simp [hm])
    obtain ⟨blank, hblank⟩ := Value.exists_isBlankNode (hwell n (by simp))
    have hprint := (h n (by simp)).outcome_value depth
    rw [List.map_cons, Value.printBody, Value.markupBody, hblank]
    refine outcome_bind_of_ok (outcome_ofExcept _) ?_
    cases blank with
    | true => exact hothers after
    | false =>
      cases hwell n (by simp) with
      | text chars =>
        exact outcome_bind_of_ok (outcome_pure _) (outcome_bind_of_ok (hothers true) rfl)
      | _ =>
        exact outcome_bind_of_ok (outcome_map_of_ok hprint)
          (outcome_bind_of_ok (hothers true) rfl)

/-- Statements in a list are printed as their markup together. -/
lemma outcome_printStatements {body : List Node} (hwell : ∀ n ∈ body, n.WellTyped)
    (h : ∀ n ∈ body, n.PrintsMarkup style) (depth : Nat) (kind : Kind) (field : String) :
    ((Value.list (body.map .node)).printStatements style depth kind field).outcome =
      .ok ((Value.list (body.map .node)).markupStatements style) :=
  outcome_map_of_ok (outcome_printBody hwell h depth false)

/-! ## Blocks and elements -/

/-- The body of a program, where it has statements. -/
lemma outcome_blockBody {content : Node} (hwell : content.WellTyped)
    (hkind : content.kind = .program) (h : content.PrintsMarkup style) (depth : Nat) :
    (Logged.ifAny (Value.node content).bodyCount do
      return Markup.blockBody (← (Value.node content).print style depth)).outcome =
      .ok (bodyMarkup (.node content) ((Value.node content).markup style)) := by
  obtain ⟨body, names, rfl⟩ := hwell.exists_program hkind
  have hcount : (Value.node (.program (.list (body.map .node))
      (.list (names.map .str)))).bodyCount = .ok (body.map Value.node).length := rfl
  exact Logged.outcome_ifAny hcount (outcome_bind_of_ok (h.outcome_value depth) rfl)

/-- The names that a program gives to what is passed on to it, where it has some. -/
lemma outcome_blockParams (body : Value) (names : List String) :
    (Logged.ifAny (Value.list (names.map .str)).count do
      let vs ← Traced.ofExcept (Value.list (names.map .str)).elements
      return Markup.blockParams (vs.map Value.document)).outcome =
      .ok (Value.node (.program body (.list (names.map .str)))).markupNames := by
  have hcount : (Value.list (names.map .str)).count = .ok (names.map Value.str).length := rfl
  have helements : (Value.list (names.map .str)).elements = .ok (names.map .str) := rfl
  have hdocuments : (names.map Value.str).map Value.document = names.map .ofString := by
    simp [Value.document, Value.part]
  rw [Value.markupNames, Value.texts_map_str, ← hdocuments]
  exact Logged.outcome_ifAny hcount
    (outcome_bind_of_ok ((outcome_ofExcept _).trans helements) rfl)

/-- The name of an element and whether it closes itself can be read. -/
lemma selfCloses_str (tag : String) (children : List Value) :
    (Value.str tag).selfCloses (.list children) =
      .ok (Value.closesItself tag (.list children)) := by
  have hcount : (children.length == 0) = !(Value.list children).isTruthy := by
    cases children <;> rfl
  by_cases htag : tag ∈ Value.voidElements
  · simp [Value.selfCloses, Value.tagName?, Value.text?, Value.count, Value.length?, htag, hcount,
      Value.closesItself, bind, Except.bind, pure, Except.pure]
  · simp [Value.selfCloses, Value.tagName?, Value.text?, htag, Value.closesItself, bind,
      Except.bind, pure, Except.pure]

/-- A block is printed as its markup if its nodes are. -/
lemma outcome_blockDocument {callee content : Node} {inverse : Option Node}
    {call : Logged Document} {callDoc : Document} (hcallee : callee.PrintsMarkup style)
    (hcall : call.outcome = .ok callDoc) (hcontentWell : content.WellTyped)
    (hcontentKind : content.kind = .program) (hcontent : content.PrintsMarkup style)
    (hinverseWell : ∀ n ∈ inverse, n.WellTyped) (hinverseKind : ∀ n ∈ inverse, n.kind = .program)
    (hinverse : ∀ n ∈ inverse, n.PrintsMarkup style) (depth : Nat) :
    (blockDocument ((Value.node callee).print style depth) call (.node content)
      (inverse.elim .null .node) ((Value.node content).print style depth)
      ((inverse.elim Value.null .node).print style depth)).outcome =
      .ok (blockMarkup ((Value.node callee).markup style) callDoc (.node content)
        ((Value.node content).markup style) (inverse.elim .null .node)
        ((inverse.elim Value.null .node).markup style)) := by
  have hclosing := hcallee.outcome_value depth
  have hbody := outcome_blockBody hcontentWell hcontentKind hcontent depth
  obtain ⟨statements, names, rfl⟩ := hcontentWell.exists_program hcontentKind
  have hnames := outcome_blockParams (.list (statements.map .node)) names
  refine outcome_bind_of_ok (outcome_ofExcept _) ?_
  refine outcome_bind_of_ok hcall ?_
  refine outcome_bind_of_ok hnames ?_
  refine outcome_bind_of_ok hbody ?_
  cases inverse with
  | none =>
    refine outcome_bind_of_ok (outcome_pure Document.empty) ?_
    exact outcome_bind_of_ok hclosing rfl
  | some n =>
    have hshown :=
      outcome_blockBody (hinverseWell n rfl) (hinverseKind n rfl) (hinverse n rfl) depth
    refine outcome_bind_of_ok (outcome_map_of_ok hshown) ?_
    exact outcome_bind_of_ok hclosing rfl

/-- An element is printed as its markup if its nodes are. -/
lemma outcome_elementDocument (tag : String) {attributes modifiers children : List Node}
    (hattributes : ∀ n ∈ attributes, n.PrintsMarkup style)
    (hmodifiers : ∀ n ∈ modifiers, n.PrintsMarkup style)
    (hchildrenWell : ∀ n ∈ children, n.WellTyped)
    (hchildren : ∀ n ∈ children, n.PrintsMarkup style) (depth : Nat) :
    (elementDocument (.str tag) (.list (attributes.map .node))
      ((Value.list (attributes.map .node)).printItems style depth .element "attributes")
      (.list (modifiers.map .node))
      ((Value.list (modifiers.map .node)).printItems style depth .element "modifiers")
      (.list (children.map .node))
      ((Value.list (children.map .node)).printStatements style depth .element
        "children")).outcome =
      .ok (elementMarkup tag
        (.list (attributes.map .node)) ((Value.list (attributes.map .node)).markupItems style)
        (.list (modifiers.map .node)) ((Value.list (modifiers.map .node)).markupItems style)
        (.list (children.map .node))
        ((Value.list (children.map .node)).markupStatements style)) := by
  have hselfCloses := selfCloses_str tag (children.map .node)
  have hattributesDoc :=
    outcome_ifAny_printItems Markup.attributes hattributes depth .element "attributes"
  have hmodifiersDoc := outcome_ifAny_printItems
    (Markup.modifiers (Value.list (attributes.map .node)).isTruthy) hmodifiers depth .element
    "modifiers"
  have hstatements := outcome_printStatements hchildrenWell hchildren depth .element "children"
  have hname : (Value.str tag).text .length = .ok tag := rfl
  obtain ⟨hasContent, hcontent⟩ := Value.exists_anyPresent hchildrenWell
  have hhasContent : (Value.list (children.map .node)).hasContent = .ok hasContent := hcontent
  refine outcome_bind_of_ok ((outcome_ofExcept _).trans hselfCloses) ?_
  refine outcome_bind_of_ok hattributesDoc ?_
  refine outcome_bind_of_ok hmodifiersDoc ?_
  refine outcome_bind_of_ok ((outcome_ofExcept _).trans hname) ?_
  refine outcome_bind_of_ok ((outcome_ofExcept _).trans hhasContent) ?_
  rw [elementMarkup, hhasContent]
  cases hasContent with
  | false => rfl
  | true => exact outcome_bind_of_ok (outcome_map_of_ok hstatements) rfl

/-! ## Every kind of node -/

/-- A well-typed node is printed as its markup, at every depth and without a fault. -/
theorem outcome_print {n : Node} (h : n.WellTyped) : n.PrintsMarkup style := by
  induction h with
  | path whole parts =>
    intro depth
    rw [print, Value.dotted_map_str, markup, Value.texts_map_str]
    exact outcome_map_of_ok (outcome_ofExcept _)
  | string s =>
    intro depth
    rw [print, Value.quotedLiteral_str]
    rfl
  | number h | boolean b | null | text chars =>
    intro depth
    rw [print, markup]
    rfl
  | pair key hkind hvalue ih =>
    intro depth
    exact outcome_bind_of_ok (ih.outcome_value (depth + 1)) rfl
  | @hash pairs hkinds hpairs ih =>
    intro depth
    rw [markup, Value.markupItems, markupAll_map_node]
    exact outcome_bind_of_ok (outcome_printAll ih (depth + 2)) rfl
  | subexpression hkinds hcallee hparams hnamed ihc ihp ihn =>
    intro depth
    exact outcome_bind_of_ok
      (outcome_callDocument depth .subexpression hkinds hnamed ihc ihp ihn) rfl
  | mustache hkinds hcallee hparams hnamed escaped ihc ihp ihn =>
    intro depth
    exact outcome_bind_of_ok
      (outcome_callDocument depth .mustache hkinds hnamed ihc ihp ihn) rfl
  | modifier hkinds hcallee hparams hnamed ihc ihp ihn =>
    intro depth
    exact outcome_bind_of_ok
      (outcome_callDocument depth .modifier hkinds hnamed ihc ihp ihn) rfl
  | comment text =>
    intro depth
    rfl
  | @concat parts hkinds hparts ih =>
    intro depth
    rw [markup, Value.markupItems, markupAll_map_node]
    exact outcome_bind_of_ok (outcome_printAll ih (depth + 2)) rfl
  | attr name hkind hvalue ih =>
    intro depth
    exact outcome_bind_of_ok (ih.outcome_value (depth + 1)) rfl
  | program hkinds hbody blockParams ih =>
    intro depth
    exact outcome_bind_of_ok
      (outcome_printStatements hbody ih (depth + 2) .program "body") rfl
  | block hkinds hcallee hparams hnamed hcontentKind hcontent hinverseKind hinverse ihc ihp ihn
      ihcontent ihinverse =>
    intro depth
    have hcall := outcome_callDocument depth .block hkinds hnamed ihc ihp ihn
    exact outcome_bind_of_ok (outcome_blockDocument ihc hcall hcontent hcontentKind ihcontent
      hinverse hinverseKind ihinverse (depth + 1)) rfl
  | element tag hattributeKinds hattributes hmodifierKinds hmodifiers hchildKinds hchildren
      blockParams iha ihm ihc =>
    intro depth
    exact outcome_bind_of_ok (outcome_elementDocument tag iha ihm hchildren ihc (depth + 2)) rfl

end Node

end GlimmerFormat
