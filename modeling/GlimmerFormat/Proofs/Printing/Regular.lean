import GlimmerFormat.Proofs.Document.Regular
import GlimmerFormat.Proofs.Printing.Outcomes

/-!
# Printing well-typed trees

A well-typed tree is printed without a fault, and what it is printed as is a regular document:
wherever free text is reflowed, a break stands behind it.  Only the statements of a program need
a break behind them as a whole; a block and an element put one there.

* `Node.yields_callDocument`, `Node.yields_blockDocument`, `Node.yields_elementDocument`: what
  the rules with several parts yield if their parts are printed as regular documents.
* `Node.yields_printBody`: what a list of statements is printed as.
* `Node.yields_print`: a well-typed node is printed as a regular document.
-/

namespace GlimmerFormat

namespace Document

/-! ## Markup -/

/-- Parameters by position are regular if each is. -/
lemma isRegular_positional {params : List Document} (h : ∀ d ∈ params, d.IsRegular false) :
    (Markup.positional params).IsRegular false := by
  have hjoined : (joined line params).IsRegular false := isRegular_joined isRegular_line h
  rw [Markup.positional, isRegular_grouped]
  exact isRegular_ofList_of_forall (by simp [hjoined])

/-- Parameters by name stay regular behind those by position. -/
lemma isRegular_named {pairs : Document} (h : pairs.IsRegular false) :
    (Markup.named pairs).IsRegular false :=
  isRegular_ofList_of_forall (by simp [h])

/-- A call is regular if its parts are. -/
lemma isRegular_call {callee positional named : Document} (hcallee : callee.IsRegular false)
    (hpositional : positional.IsRegular false) (hnamed : named.IsRegular false) :
    (Markup.call callee positional named).IsRegular false := by
  rw [Markup.call, isRegular_grouped]
  exact isRegular_ofList_of_forall (by simp [hcallee, hpositional, hnamed])

/-- A parameter by name is regular if its key and its value are. -/
lemma isRegular_pair {key value : Document} (hkey : key.IsRegular false)
    (hvalue : value.IsRegular false) : (Markup.pair key value).IsRegular false :=
  isRegular_ofList_of_forall (by simp [hkey, hvalue])

/-- A regular call inside another one is regular. -/
lemma isRegular_subexpression {call : Document} (h : call.IsRegular false) :
    (Markup.subexpression call).IsRegular false := by
  rw [Markup.subexpression, isRegular_grouped]
  exact isRegular_ofList_of_forall (by simp [h])

/-- An inserted value is regular if its call is. -/
lemma isRegular_mustache (escaped : Bool) {call : Document} (h : call.IsRegular false) :
    (Markup.mustache escaped call).IsRegular false := by
  cases escaped with
  | true =>
    rw [Markup.mustache, if_pos rfl, isRegular_grouped]
    exact isRegular_ofList_of_forall (by simp [h])
  | false =>
    rw [Markup.mustache, if_neg (by simp), isRegular_grouped]
    exact isRegular_ofList_of_forall (by simp [h])

/-- A modifier is regular if its call is. -/
lemma isRegular_modifier {call : Document} (h : call.IsRegular false) :
    (Markup.modifier call).IsRegular false := by
  rw [Markup.modifier, isRegular_grouped]
  exact isRegular_ofList_of_forall (by simp [h])

/-- A break stands behind the words of a comment. -/
lemma isRegular_comment (text : String) : (Markup.comment text).IsRegular false := by
  have hwords := isRegular_paragraph text
  simp [Markup.comment, hwords]

/-- A quoted value is regular if its parts are. -/
lemma isRegular_concat {parts : List Document} (h : ∀ d ∈ parts, d.IsRegular false) :
    (Markup.concat parts).IsRegular false := by
  rw [Markup.concat, isRegular_grouped]
  refine isRegular_ofList_of_forall ?_
  intro d hd
  rcases List.mem_append.mp hd with hd | hd
  · rcases List.mem_append.mp hd with hd | hd
    · obtain rfl := List.mem_singleton.mp hd
      exact isRegular_text _
    · exact h d hd
  · obtain rfl := List.mem_singleton.mp hd
    exact isRegular_text _

/-- An attribute is regular if its name and its value are. -/
lemma isRegular_attr {name value : Document} (quoted : Bool) (hname : name.IsRegular false)
    (hvalue : value.IsRegular false) : (Markup.attr name quoted value).IsRegular false := by
  cases quoted <;>
    exact isRegular_ofList_of_forall (by simp [hname, hvalue, Markup.quote])

/-- The names of a block are regular if each is. -/
lemma isRegular_blockParams {names : List Document} (h : ∀ d ∈ names, d.IsRegular false) :
    (Markup.blockParams names).IsRegular false := by
  have hjoined : (joined line names).IsRegular false := isRegular_joined isRegular_line h
  exact isRegular_ofList_of_forall (by simp [hjoined])

/-- The header of a block is regular if its call and its names are. -/
lemma isRegular_blockHeader {call blockParams : Document} (hcall : call.IsRegular false)
    (hparams : blockParams.IsRegular false) :
    (Markup.blockHeader call blockParams).IsRegular false := by
  rw [Markup.blockHeader, isRegular_grouped]
  refine isRegular_ofList_of_forall ?_
  simp [hparams, hcall.before]

/-- Before a break the body of a block is regular if its statements are. -/
lemma isRegular_blockBody {statements : Document} (h : statements.IsRegular true) :
    (Markup.blockBody statements).IsRegular true := by
  simp [Markup.blockBody, h]

/-- Before a break the inverse of a block is regular if its body is. -/
lemma isRegular_blockInverse {body : Document} (h : body.IsRegular true) :
    (Markup.blockInverse body).IsRegular true := by
  simp [Markup.blockInverse, h]

/-- A break stands behind the body of a block and behind what it shows otherwise. -/
lemma isRegular_block {header body inverse callee : Document} (hheader : header.IsRegular false)
    (hbody : body.IsRegular true) (hinverse : inverse.IsRegular true)
    (hstart : inverse.startsWithBreak true = true) (hcallee : callee.IsRegular false) :
    (Markup.block header body inverse callee).IsRegular false := by
  simp [Markup.block, hheader.before, hbody, hinverse, hstart, hcallee.before]

/-- The attributes of an element are regular if each is. -/
lemma isRegular_attributes {docs : List Document} (h : ∀ d ∈ docs, d.IsRegular false) :
    (Markup.attributes docs).IsRegular false := by
  have hjoined : (joined line docs).IsRegular false := isRegular_joined isRegular_line h
  exact isRegular_ofList_of_forall (by simp [hjoined])

/-- The modifiers of an element are regular if each is. -/
lemma isRegular_modifiers (afterAttributes : Bool) {docs : List Document}
    (h : ∀ d ∈ docs, d.IsRegular false) :
    (Markup.modifiers afterAttributes docs).IsRegular false := by
  have hjoined : (joined line docs).IsRegular false := isRegular_joined isRegular_line h
  cases afterAttributes <;> exact isRegular_ofList_of_forall (by simp [hjoined])

/-- A start tag is regular if its attributes and its modifiers are. -/
lemma isRegular_startTag (name : String) {attributes modifiers : Document} (selfCloses : Bool)
    (hattributes : attributes.IsRegular false) (hmodifiers : modifiers.IsRegular false) :
    (Markup.startTag name attributes modifiers selfCloses).IsRegular false := by
  rw [Markup.startTag, isRegular_grouped]
  refine isRegular_ofList_of_forall ?_
  cases selfCloses <;> simp [hattributes.before, hmodifiers]

/-- Before a break the children of an element are regular if they are as statements. -/
lemma isRegular_children {statements : Document} (h : statements.IsRegular true) :
    (Markup.children statements).IsRegular true := by
  simp [Markup.children, h]

/-- A break stands behind the children of an element that has an end tag. -/
lemma isRegular_element {startTag children : Document} (name : String) (selfCloses : Bool)
    (hstart : startTag.IsRegular false) (hchildren : children.IsRegular true)
    (hempty : selfCloses = true → children = .empty) :
    (Markup.element startTag children
      (if selfCloses then .empty else Markup.endTag name)).IsRegular false := by
  cases selfCloses with
  | true =>
    rw [hempty rfl]
    simp [Markup.element, hstart]
  | false => simp [Markup.element, Markup.endTag, hstart.before, hchildren]

end Document

/-! ## Nodes and lists of nodes -/

open Document (AreRegular)

namespace Node

variable {style : Markup.QuoteStyle}

/-- At every depth a node is printed as a regular document; the statements of a program need a
break behind them. -/
def PrintsRegular (style : Markup.QuoteStyle) (n : Node) : Prop :=
  ∀ depth, (n.print style depth).Yields fun p => p.document.IsRegular (n.kind == .program)

/-- A node that is printed as a regular document, where a value is printed. -/
lemma PrintsRegular.yields_value {n : Node} (h : n.PrintsRegular style) (depth : Nat) :
    ((Value.node n).print style depth).Yields fun p =>
      p.document.IsRegular (n.kind == .program) :=
  Traced.yields_note_bind (h depth)

/-- A node of another kind than a program needs no break behind it. -/
lemma PrintsRegular.yields_part {n : Node} (h : n.PrintsRegular style) (hkind : n.kind ≠ .program)
    (depth : Nat) :
    ((Value.node n).print style depth).Yields fun p => p.document.IsRegular false := by
  have hfalse : (n.kind == .program) = false := by simpa using hkind
  have hvalue := h.yields_value depth
  rwa [hfalse] at hvalue

/-- Nodes in a list, printed one after the other. -/
lemma yields_printAll {ns : List Node} (hkinds : ∀ n ∈ ns, n.kind ≠ .program)
    (h : ∀ n ∈ ns, n.PrintsRegular style) (depth : Nat) :
    (Value.printAll style depth (ns.map .node)).Yields fun ps =>
      ∀ d ∈ ps.map Part.document, d.IsRegular false := by
  induction ns with
  | nil => exact Traced.yields_pure (by simp)
  | cons n ns ih =>
    have hfirst := (h n (by simp)).yields_part (hkinds n (by simp)) depth
    have hothers := ih (fun m hm => hkinds m (by simp [hm])) fun m hm => h m (by simp [hm])
    refine hfirst.bind ?_
    intro p hp
    refine hothers.bind ?_
    intro ps hps
    refine Traced.yields_pure ?_
    intro d hd
    rcases List.mem_cons.mp hd with rfl | hd
    · exact hp
    · exact hps d hd

/-- Nodes in a field, if there are any, with some markup around them. -/
lemma yields_ifAny_printItems {ns : List Node} {markup : List Document → Document}
    (hkinds : ∀ n ∈ ns, n.kind ≠ .program) (h : ∀ n ∈ ns, n.PrintsRegular style)
    (hmarkup : ∀ {ds : List Document}, (∀ d ∈ ds, d.IsRegular false) →
      (markup ds).IsRegular false) (depth : Nat) (kind : Kind) (field : String) :
    (Logged.ifAny (Value.list (ns.map .node)).count do
      return markup ((← (Value.list (ns.map .node)).printItems style depth kind field).map
        Part.document)).Yields fun d => d.IsRegular false := by
  have hcount : (Value.list (ns.map .node)).count = .ok (ns.map Value.node).length := rfl
  have hprinted := yields_printAll hkinds h depth
  refine Logged.yields_ifAny hcount trivial (hprinted.bind ?_)
  intro ps hps
  exact Traced.yields_pure (hmarkup hps)

/-! ## Calls -/

/-- A call whose nodes are printed as regular documents. -/
lemma yields_callDocument {callee named : Node} {params : List Node} (depth : Nat) (kind : Kind)
    (hkinds : CallKinds callee params named) (hnamed : named.WellTyped)
    (hcallee : callee.PrintsRegular style) (hparams : ∀ p ∈ params, p.PrintsRegular style)
    (hpairs : named.PrintsRegular style) :
    (GlimmerFormat.callDocument ((Value.node callee).print style (depth + 1))
      (.list (params.map .node))
      ((Value.list (params.map .node)).printItems style (depth + 2) kind "params")
      (.node named) ((Value.node named).print style (depth + 1))).Yields
      fun d => d.IsRegular false := by
  have hcalleeKind : callee.kind ≠ .program := by simp [hkinds.callee]
  have hnamedKind : named.kind ≠ .program := by simp [hkinds.named]
  have hparamKinds : ∀ p ∈ params, p.kind ≠ .program := by
    intro p hp heq
    have hexpression := hkinds.params p hp
    simp [heq, Kind.isExpression] at hexpression
  obtain ⟨pairs, rfl⟩ := hnamed.exists_hash hkinds.named
  have hhead := hcallee.yields_part hcalleeKind (depth + 1)
  have hpositional := yields_ifAny_printItems hparamKinds hparams Document.isRegular_positional
    (depth + 2) kind "params"
  have hcount : (Value.node (.hash (.list (pairs.map .node)))).pairCount =
      .ok (pairs.map Value.node).length := rfl
  refine hhead.bind ?_
  intro head hhead
  refine hpositional.bind ?_
  intro positional hpositional
  have hbyName := Logged.yields_ifAny (p := Document.IsRegular false) hcount trivial
    ((hpairs.yields_part hnamedKind (depth + 1)).bind fun _ hps =>
      Traced.yields_pure (Document.isRegular_named hps))
  refine hbyName.bind ?_
  intro byName hbyName
  exact Traced.yields_pure (Document.isRegular_call hhead hpositional hbyName)

/-! ## Statements -/

/-- A statement is printed as a document that is regular once a break stands behind it. -/
lemma yields_printBody {body : List Node} (hkinds : ∀ n ∈ body, n.kind.isStatement = true)
    (hwell : ∀ n ∈ body, n.WellTyped) (h : ∀ n ∈ body, n.PrintsRegular style) (depth : Nat)
    (after : Bool) :
    (Value.printBody style depth after (body.map .node)).Yields fun ds =>
      AreRegular true ds ∧ (after = true → Document.startWithBreak true ds = true) := by
  induction body generalizing after with
  | nil => exact Traced.yields_pure ⟨trivial, fun _ => rfl⟩
  | cons n ns ih =>
    have hothers := ih (fun m hm => hkinds m (by simp [hm])) (fun m hm => hwell m (by simp [hm]))
      fun m hm => h m (by simp [hm])
    obtain ⟨blank, hblank⟩ := Value.exists_isBlankNode (hwell n (by simp))
    rw [List.map_cons, Value.printBody]
    refine Traced.yields_ofExcept_bind hblank ?_
    cases blank with
    | true => exact hothers after
    | false =>
      -- Every statement behind the first starts with a separator, so a break stands behind this.
      have hbehind : ∀ (isText : Bool) (d : Document), d.IsRegular true →
          (do
            let others ← Value.printBody style depth true (ns.map .node)
            return (if after then [Markup.separator isText] else []) ++ d :: others :
            Logged (List Document)).Yields fun ds =>
              AreRegular true ds ∧ (after = true → Document.startWithBreak true ds = true) := by
        intro isText d hd
        refine (hothers true).bind ?_
        intro ds hds
        have hregular : AreRegular true (d :: ds) := by
          simpa [hds.2 rfl] using ⟨hd, hds.1⟩
        refine Traced.yields_pure ?_
        cases after with
        | false => exact ⟨hregular, by simp⟩
        | true => cases isText <;> simpa [Markup.separator] using hregular
      have hkind : n.kind ≠ .program := by
        intro heq
        have hstatement := hkinds n (by simp)
        simp [heq, Kind.isStatement] at hstatement
      have hprint := (h n (by simp)).yields_part hkind depth
      have hregular : (Part.document <$> (Value.node n).print style depth).Yields
          (Document.IsRegular true) := hprint.map fun p hp => hp.before
      cases hwell n (by simp) with
      | text chars => exact hbehind true _ (Document.isRegular_paragraph chars)
      | _ =>
        refine hregular.bind ?_
        intro d hd
        exact hbehind false d hd

/-- Well-typed statements are printed as a regular document once a break stands behind them. -/
lemma yields_printStatements {body : List Node} (hkinds : ∀ n ∈ body, n.kind.isStatement = true)
    (hwell : ∀ n ∈ body, n.WellTyped) (h : ∀ n ∈ body, n.PrintsRegular style) (depth : Nat)
    (kind : Kind) (field : String) :
    ((Value.list (body.map .node)).printStatements style depth kind field).Yields
      fun d => d.IsRegular true := by
  have hbody := yields_printBody hkinds hwell h depth false
  refine hbody.map ?_
  intro ds hds
  exact Document.isRegular_ofList.mpr hds.1

/-! ## Blocks and elements -/

/-- The body of a program, on lines of its own where it has statements. -/
lemma yields_blockBody {content : Node} (hwell : content.WellTyped)
    (hkind : content.kind = .program) (h : content.PrintsRegular style) (depth : Nat) :
    (Logged.ifAny (Value.node content).bodyCount do
      return Markup.blockBody (← (Value.node content).print style depth)).Yields
      fun d => d.IsRegular true := by
  obtain ⟨body, names, rfl⟩ := hwell.exists_program hkind
  have hcount : (Value.node (.program (.list (body.map .node))
      (.list (names.map .str)))).bodyCount = .ok (body.map Value.node).length := rfl
  have hprinted := h.yields_value depth
  refine Logged.yields_ifAny hcount trivial (hprinted.bind ?_)
  intro p hp
  exact Traced.yields_pure (Document.isRegular_blockBody hp)

/-- The names that a block gives to what it passes on, where it has some. -/
lemma yields_blockParams (names : List String) :
    (Logged.ifAny (Value.list (names.map .str)).count do
      let vs ← Traced.ofExcept (Value.list (names.map .str)).elements
      return Markup.blockParams (vs.map Value.document)).Yields (Document.IsRegular false) := by
  have hcount : (Value.list (names.map .str)).count = .ok (names.map Value.str).length := rfl
  have helements : (Value.list (names.map .str)).elements = .ok (names.map .str) := rfl
  have hnames : Document.IsRegular false
      (Markup.blockParams ((names.map Value.str).map Value.document)) :=
    Document.isRegular_blockParams (by simp [Value.document, Value.part])
  refine Logged.yields_ifAny hcount trivial ?_
  refine Traced.yields_ofExcept_bind helements ?_
  exact Traced.yields_pure hnames

/-- A block whose nodes are printed as regular documents. -/
lemma yields_blockDocument {callee content : Node} {inverse : Option Node} (depth : Nat)
    {call : Logged Document} (hcalleeKind : callee.kind ≠ .program)
    (hcallee : callee.PrintsRegular style) (hcall : call.Yields fun d => d.IsRegular false)
    (hcontentKind : content.kind = .program) (hcontentWell : content.WellTyped)
    (hcontent : content.PrintsRegular style) (hinverseKind : ∀ n ∈ inverse, n.kind = .program)
    (hinverseWell : ∀ n ∈ inverse, n.WellTyped) (hinverse : ∀ n ∈ inverse, n.PrintsRegular style) :
    (blockDocument ((Value.node callee).print style depth) call (.node content)
      (inverse.elim .null .node) ((Value.node content).print style depth)
      ((inverse.elim Value.null .node).print style depth)).Yields fun d => d.IsRegular false := by
  have hclosing := hcallee.yields_part hcalleeKind depth
  have hbody := yields_blockBody hcontentWell hcontentKind hcontent depth
  obtain ⟨statements, names, rfl⟩ := hcontentWell.exists_program hcontentKind
  have hnames : (Value.node (.program (.list (statements.map .node))
      (.list (names.map .str)))).blockParams = .ok (.list (names.map .str)) := rfl
  refine Traced.yields_ofExcept_bind hnames ?_
  refine hcall.bind ?_
  intro header hheader
  refine (yields_blockParams names).bind ?_
  intro clause hclause
  refine hbody.bind ?_
  intro body hbody
  have hopening := Document.isRegular_blockHeader hheader hclause
  -- Whatever is shown otherwise, the end of the block follows it.
  have hend : ∀ otherwise : Document, otherwise.IsRegular true →
      otherwise.startsWithBreak true = true →
      (do
        let closing ← (Value.node callee).print style depth
        return Markup.block (Markup.blockHeader header clause) body otherwise closing :
        Logged Document).Yields fun d => d.IsRegular false := by
    intro otherwise hotherwise hstart
    refine hclosing.bind ?_
    intro closing hclosing
    exact Traced.yields_pure
      (Document.isRegular_block hopening hbody hotherwise hstart hclosing)
  cases inverse with
  | none => exact hend .empty trivial rfl
  | some n =>
    have hshown := yields_blockBody (hinverseWell n rfl) (hinverseKind n rfl) (hinverse n rfl) depth
    have hotherwise := hshown.map (f := Markup.blockInverse)
      (q := fun d => d.IsRegular true ∧ d.startsWithBreak true = true)
      fun d hd => ⟨Document.isRegular_blockInverse hd, by simp [Markup.blockInverse]⟩
    refine hotherwise.bind ?_
    intro otherwise h
    exact hend otherwise h.1 h.2

/-- An element whose nodes are printed as regular documents. -/
lemma yields_elementDocument (tag : String) {attributes modifiers children : List Node}
    (depth : Nat) (hattributeKinds : ∀ n ∈ attributes, n.kind = .attr)
    (hattributes : ∀ n ∈ attributes, n.PrintsRegular style)
    (hmodifierKinds : ∀ n ∈ modifiers, n.kind = .modifier)
    (hmodifiers : ∀ n ∈ modifiers, n.PrintsRegular style)
    (hchildKinds : ∀ n ∈ children, n.kind.isStatement = true)
    (hchildrenWell : ∀ n ∈ children, n.WellTyped)
    (hchildren : ∀ n ∈ children, n.PrintsRegular style) :
    (elementDocument (.str tag) (.list (attributes.map .node))
      ((Value.list (attributes.map .node)).printItems style depth .element "attributes")
      (.list (modifiers.map .node))
      ((Value.list (modifiers.map .node)).printItems style depth .element "modifiers")
      (.list (children.map .node))
      ((Value.list (children.map .node)).printStatements style depth .element "children")).Yields
      fun d => d.IsRegular false := by
  obtain ⟨selfCloses, hselfCloses, hempty⟩ := Value.exists_selfCloses tag (children.map .node)
  obtain ⟨hasContent, hhasContent⟩ := Value.exists_anyPresent hchildrenWell
  have hattributesDoc := yields_ifAny_printItems (fun n hn => by simp [hattributeKinds n hn])
    hattributes Document.isRegular_attributes depth .element "attributes"
  have hmodifiersDoc := yields_ifAny_printItems (fun n hn => by simp [hmodifierKinds n hn])
    hmodifiers (Document.isRegular_modifiers (Value.list (attributes.map .node)).isTruthy) depth
    .element "modifiers"
  have hname : (Value.str tag).text .length = .ok tag := rfl
  refine Traced.yields_ofExcept_bind hselfCloses ?_
  refine hattributesDoc.bind ?_
  intro as has
  refine hmodifiersDoc.bind ?_
  intro ms hms
  refine Traced.yields_ofExcept_bind hname ?_
  refine Traced.yields_ofExcept_bind hhasContent ?_
  have hstart := Document.isRegular_startTag tag selfCloses has hms
  cases hasContent with
  | false =>
    exact Traced.yields_pure (Document.isRegular_element tag selfCloses hstart trivial fun _ => rfl)
  | true =>
    -- What has content does not close itself.
    have hopen : selfCloses ≠ true := by
      intro heq
      rw [hempty heq] at hhasContent
      cases hhasContent
    have hstatements := yields_printStatements hchildKinds hchildrenWell hchildren depth .element
      "children"
    refine (hstatements.map fun d hd => Document.isRegular_children hd).bind ?_
    intro content hcontent
    exact Traced.yields_pure
      (Document.isRegular_element tag selfCloses hstart hcontent fun heq => absurd heq hopen)

/-! ## Every kind of node -/

/-- A well-typed node is printed as a regular document, at every depth and without a fault. -/
theorem yields_print {n : Node} (h : n.WellTyped) : n.PrintsRegular style := by
  induction h with
  | path whole parts =>
    intro depth
    have hdotted : (Traced.ofExcept (ρ := LogRow) (Value.list (parts.map .str)).dotted).Yields
        fun _ => True := Traced.yields_ofExcept (Value.dotted_map_str parts) trivial
    refine hdotted.map ?_
    intro s _
    exact Document.isRegular_ofString s
  | string s =>
    intro depth
    obtain ⟨t, ht⟩ := Value.exists_quotedLiteral style.mark s
    exact Traced.yields_ofExcept ht (Document.isRegular_ofString t)
  | number h | boolean b | null | text chars =>
    intro depth
    exact Traced.yields_pure (Document.isRegular_ofString _)
  | @pair key value hkind hvalue ih =>
    intro depth
    have hvalueKind : value.kind ≠ .program := by
      intro heq
      simp [heq, Kind.isExpression] at hkind
    refine (ih.yields_part hvalueKind (depth + 1)).bind ?_
    intro p hp
    exact Traced.yields_pure (Document.isRegular_pair (Document.isRegular_ofString key) hp)
  | @hash pairs hkinds hpairs ih =>
    intro depth
    have hprinted := yields_printAll (fun n hn => by simp [hkinds n hn]) ih (depth + 2)
    refine hprinted.bind ?_
    intro ps hps
    exact Traced.yields_pure (Document.isRegular_joined Document.isRegular_line hps)
  | subexpression hkinds hcallee hparams hnamed ihc ihp ihn =>
    intro depth
    refine (yields_callDocument depth .subexpression hkinds hnamed ihc ihp ihn).bind ?_
    intro call hcall
    exact Traced.yields_pure (Document.isRegular_subexpression hcall)
  | mustache hkinds hcallee hparams hnamed escaped ihc ihp ihn =>
    intro depth
    refine (yields_callDocument depth .mustache hkinds hnamed ihc ihp ihn).bind ?_
    intro call hcall
    exact Traced.yields_pure (Document.isRegular_mustache escaped hcall)
  | modifier hkinds hcallee hparams hnamed ihc ihp ihn =>
    intro depth
    refine (yields_callDocument depth .modifier hkinds hnamed ihc ihp ihn).bind ?_
    intro call hcall
    exact Traced.yields_pure (Document.isRegular_modifier hcall)
  | comment text =>
    intro depth
    have htext : (Value.str text).text .words = .ok text := rfl
    refine Traced.yields_ofExcept_bind htext ?_
    exact Traced.yields_pure (Document.isRegular_comment text)
  | @concat parts hkinds hparts ih =>
    intro depth
    have hpartKinds : ∀ n ∈ parts, n.kind ≠ .program := by
      intro n hn heq
      have hquotable := hkinds n hn
      simp [heq, Kind.isQuotable] at hquotable
    refine (yields_printAll hpartKinds ih (depth + 2)).bind ?_
    intro ps hps
    exact Traced.yields_pure (Document.isRegular_concat hps)
  | @attr name value hkind hvalue ih =>
    intro depth
    have hvalueKind : value.kind ≠ .program := by
      intro heq
      simp [heq, Kind.isAttributeValue] at hkind
    refine (ih.yields_part hvalueKind (depth + 1)).bind ?_
    intro p hp
    exact Traced.yields_pure (Document.isRegular_attr _ (Document.isRegular_ofString name) hp)
  | program hkinds hbody blockParams ih =>
    intro depth
    -- Nothing closes a program, so it is regular only once a break stands behind it.
    refine (yields_printStatements hkinds hbody ih (depth + 2) .program "body").bind ?_
    intro d hd
    exact Traced.yields_pure hd
  | @block callee named content params inverse hkinds hcallee hparams hnamed hcontentKind hcontent
      hinverseKind hinverse ihc ihp ihn ihcontent ihinverse =>
    intro depth
    have hcall := yields_callDocument depth .block hkinds hnamed ihc ihp ihn
    have hcalleeKind : callee.kind ≠ .program := by simp [hkinds.callee]
    refine (yields_blockDocument (depth + 1) hcalleeKind ihc hcall hcontentKind hcontent ihcontent
      hinverseKind hinverse ihinverse).bind ?_
    intro d hd
    exact Traced.yields_pure hd
  | element tag hattributeKinds hattributes hmodifierKinds hmodifiers hchildKinds hchildren
      blockParams iha ihm ihc =>
    intro depth
    refine (yields_elementDocument tag (depth + 2) hattributeKinds iha hmodifierKinds ihm
      hchildKinds hchildren ihc).bind ?_
    intro d hd
    exact Traced.yields_pure hd

end Node

end GlimmerFormat
