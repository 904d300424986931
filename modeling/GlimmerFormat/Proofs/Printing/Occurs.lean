import GlimmerFormat.Proofs.Layout.Stretches
import GlimmerFormat.Proofs.Printing.Statements
import GlimmerFormat.Proofs.Tree.Occurs

/-!
# Where nodes are printed

The markup of a well-typed tree holds the markup of each node that occurs in it, however deep it
stands.  Text is the exception: it is reflowed among statements, and left out if it is blank.

* `Document.shows_call_callee`, `Document.shows_block_body` and so on: constructs show their parts.
* `Node.shows_of_mem_children`: a node shows the nodes directly below it.
* `Node.shows_of_occurs`: a tree shows what occurs in it.
-/

namespace GlimmerFormat

open Markup (QuoteStyle)

/-! ## Constructs -/

namespace Document

variable {blank : Char → Bool} {unit : String} {d e : Document} {docs : List Document}

/-- A group of documents shows whatever one of them does. -/
lemma shows_grouped_ofList (hmem : d ∈ docs) (hde : Shows blank unit d e) :
    Shows blank unit (ofList docs).grouped e :=
  (shows_grouped _).trans ((shows_ofList hmem).trans hde)

/-- What is made of parts that are there shows what it is made of. -/
lemma shows_ifAny {count : Except Fault Nat} {k : Nat} (hcount : count = .ok k)
    (hnone : k = 0 → e = .empty) (hde : Shows blank unit d e) :
    Shows blank unit (ifAny count d) e := by
  subst hcount
  cases k with
  | zero => rw [hnone rfl]; exact shows_empty _
  | succ k => exact hde

/-- Parameters by position show each of them. -/
lemma shows_positional (hmem : d ∈ docs) : Shows blank unit (Markup.positional docs) d :=
  shows_grouped_ofList (by simp) (shows_joined line hmem)

/-- Parameters by name are shown behind those by position. -/
lemma shows_named (pairs : Document) : Shows blank unit (Markup.named pairs) pairs :=
  shows_ofList (by simp)

/-- A call shows its callee. -/
lemma shows_call_callee (callee positional named : Document) :
    Shows blank unit (Markup.call callee positional named) callee :=
  shows_grouped_ofList (by simp) (.refl callee)

/-- A call shows its parameters by position. -/
lemma shows_call_positional (callee positional named : Document) :
    Shows blank unit (Markup.call callee positional named) positional :=
  shows_grouped_ofList (by simp) (.refl positional)

/-- A call shows its parameters by name. -/
lemma shows_call_named (callee positional named : Document) :
    Shows blank unit (Markup.call callee positional named) named :=
  shows_grouped_ofList (by simp) (.refl named)

/-- A parameter by name shows its value. -/
lemma shows_pair (key value : Document) : Shows blank unit (Markup.pair key value) value :=
  shows_ofList (by simp)

/-- The parameters by name show each of them. -/
lemma shows_pairs (hmem : d ∈ docs) : Shows blank unit (Markup.pairs docs) d :=
  shows_joined line hmem

/-- A call inside another one shows itself. -/
lemma shows_subexpression (hunit : Text.ink blank unit = []) (call : Document) :
    Shows blank unit (Markup.subexpression call) call :=
  shows_grouped_ofList (by simp) (shows_indented hunit call)

/-- An inserted value shows its call, whether it is escaped or not. -/
lemma shows_mustache (hunit : Text.ink blank unit = []) (escaped : Bool) (call : Document) :
    Shows blank unit (Markup.mustache escaped call) call := by
  cases escaped with
  | true => exact shows_grouped_ofList (by simp) (shows_indented hunit call)
  | false => exact shows_grouped_ofList (by simp) (shows_indented hunit call)

/-- A modifier shows its call. -/
lemma shows_modifier (call : Document) : Shows blank unit (Markup.modifier call) call :=
  shows_grouped_ofList (by simp) (.refl call)

/-- A quoted value shows each of its parts. -/
lemma shows_concat (hmem : d ∈ docs) : Shows blank unit (Markup.concat docs) d :=
  shows_grouped_ofList (by simp [hmem]) (.refl d)

/-- An attribute shows its value, whether it is quoted or not. -/
lemma shows_attr (name : Document) (quoted : Bool) (value : Document) :
    Shows blank unit (Markup.attr name quoted value) value := by
  cases quoted with
  | true => exact shows_ofList (by simp)
  | false => exact shows_ofList (by simp)

/-- The header of a block shows its call. -/
lemma shows_blockHeader (hunit : Text.ink blank unit = []) (call names : Document) :
    Shows blank unit (Markup.blockHeader call names) call :=
  shows_grouped_ofList (by simp)
    ((shows_indented hunit (ofList [call, names])).trans (shows_ofList (by simp)))

/-- The body of a block shows its statements. -/
lemma shows_blockBody (hunit : Text.ink blank unit = []) (statements : Document) :
    Shows blank unit (Markup.blockBody statements) statements :=
  (shows_indented hunit _).trans (shows_ofList (by simp))

/-- The inverse of a block shows its body. -/
lemma shows_blockInverse (body : Document) : Shows blank unit (Markup.blockInverse body) body :=
  shows_ofList (by simp)

/-- A block shows its header. -/
lemma shows_block_header (header body inverse callee : Document) :
    Shows blank unit (Markup.block header body inverse callee) header :=
  shows_grouped_ofList (by simp) (.refl header)

/-- A block shows its body. -/
lemma shows_block_body (header body inverse callee : Document) :
    Shows blank unit (Markup.block header body inverse callee) body :=
  shows_grouped_ofList (by simp) (.refl body)

/-- A block shows its inverse. -/
lemma shows_block_inverse (header body inverse callee : Document) :
    Shows blank unit (Markup.block header body inverse callee) inverse :=
  shows_grouped_ofList (by simp) (.refl inverse)

/-- The attributes of an element show each of them. -/
lemma shows_attributes (hmem : d ∈ docs) : Shows blank unit (Markup.attributes docs) d :=
  (shows_ofList (by simp)).trans (shows_joined line hmem)

/-- The modifiers of an element show each of them. -/
lemma shows_modifiers (afterAttributes : Bool) (hmem : d ∈ docs) :
    Shows blank unit (Markup.modifiers afterAttributes docs) d :=
  (shows_ofList (by simp)).trans (shows_joined line hmem)

/-- A start tag shows its attributes. -/
lemma shows_startTag_attributes (hspacing : Text.CoversSpacing blank) (name : String)
    (attributes modifiers : Document) (selfCloses : Bool) :
    Shows blank unit (Markup.startTag name attributes modifiers selfCloses) attributes :=
  shows_grouped_ofList (by simp)
    ((shows_aligned hspacing (name.length + 2) (ofList [attributes, modifiers])).trans
      (shows_ofList (by simp)))

/-- A start tag shows its modifiers. -/
lemma shows_startTag_modifiers (hspacing : Text.CoversSpacing blank) (name : String)
    (attributes modifiers : Document) (selfCloses : Bool) :
    Shows blank unit (Markup.startTag name attributes modifiers selfCloses) modifiers :=
  shows_grouped_ofList (by simp)
    ((shows_aligned hspacing (name.length + 2) (ofList [attributes, modifiers])).trans
      (shows_ofList (by simp)))

/-- The children of an element show the statements that they are. -/
lemma shows_children (hunit : Text.ink blank unit = []) (statements : Document) :
    Shows blank unit (Markup.children statements) statements :=
  (shows_indented hunit _).trans (shows_ofList (by simp))

/-- An element shows its start tag. -/
lemma shows_element_startTag (startTag children endTag : Document) :
    Shows blank unit (Markup.element startTag children endTag) startTag :=
  shows_grouped_ofList (by simp) (.refl startTag)

/-- An element shows its children. -/
lemma shows_element_children (startTag children endTag : Document) :
    Shows blank unit (Markup.element startTag children endTag) children :=
  shows_grouped_ofList (by simp) (.refl children)

end Document

namespace Node

variable {blank : Char → Bool} {unit : String} {style : QuoteStyle} {m n : Node}

/-! ## Nodes in fields -/

/-- The markup of one node is found in whatever the markup of another is laid out as. -/
def Shows (blank : Char → Bool) (unit : String) (style : QuoteStyle) (n m : Node) : Prop :=
  Document.Shows blank unit (n.markup style).document (m.markup style).document

/-- What a node of a list is printed as is among what the list is. -/
lemma mem_markupItems {ns : List Node} (hm : m ∈ ns) :
    (m.markup style).document ∈ (Value.list (ns.map .node)).markupItems style := by
  rw [Value.markupItems, markupAll_map_node]
  exact List.mem_map_of_mem (List.mem_map_of_mem hm)

/-- Items in a field are shown by what is made of them. -/
lemma shows_ifAny_markupItems {ns : List Node} {markup : List Document → Document}
    (hmarkup : ∀ {d : Document} {docs : List Document}, d ∈ docs →
      Document.Shows blank unit (markup docs) d) (hm : m ∈ ns) :
    Document.Shows blank unit (.ifAny (Value.list (ns.map .node)).count
      (markup ((Value.list (ns.map .node)).markupItems style))) (m.markup style).document := by
  have hcount : (Value.list (ns.map .node)).count = .ok (ns.map Value.node).length := rfl
  refine Document.shows_ifAny hcount ?_ (hmarkup (mem_markupItems hm))
  intro hzero
  obtain rfl : ns = [] := by simpa using hzero
  cases hm

/-- A call shows its callee and its parameters. -/
lemma shows_callMarkup {callee named : Node} {params : List Node} (hwell : named.WellTyped)
    (hkind : named.kind = .hash) (hm : m = callee ∨ m ∈ params ∨ m = named) :
    Document.Shows blank unit (callMarkup ((Value.node callee).markup style)
      (.list (params.map .node)) ((Value.list (params.map .node)).markupItems style) (.node named)
      ((Value.node named).markup style)) (m.markup style).document := by
  rcases hm with rfl | hm | rfl
  · exact Document.shows_call_callee _ _ _
  · exact (Document.shows_call_positional _ _ _).trans
      (shows_ifAny_markupItems Document.shows_positional hm)
  · obtain ⟨pairs, rfl⟩ := hwell.exists_hash hkind
    have hcount : (Value.node (.hash (.list (pairs.map .node)))).pairCount =
        .ok (pairs.map Value.node).length := rfl
    refine (Document.shows_call_named _ _ _).trans
      (Document.shows_ifAny hcount ?_ (Document.shows_named _))
    intro hzero
    obtain rfl : pairs = [] := by simpa using hzero
    rfl

/-- The body of a program shows the program. -/
lemma shows_bodyMarkup (hunit : Text.ink blank unit = []) {content : Node}
    (hwell : content.WellTyped) (hkind : content.kind = .program) :
    Document.Shows blank unit (bodyMarkup (.node content) ((Value.node content).markup style))
      (content.markup style).document := by
  obtain ⟨body, names, rfl⟩ := hwell.exists_program hkind
  have hcount : (Value.node (.program (.list (body.map .node))
      (.list (names.map .str)))).bodyCount = .ok (body.map Value.node).length := rfl
  refine Document.shows_ifAny hcount ?_ (Document.shows_blockBody hunit _)
  intro hzero
  obtain rfl : body = [] := by simpa using hzero
  rfl

/-- Statements show each statement that is no text. -/
lemma shows_markupStatements {ns : List Node} (hwell : ∀ n ∈ ns, n.WellTyped) (hm : m ∈ ns)
    (hkind : m.kind ≠ .text) :
    Document.Shows blank unit ((Value.list (ns.map .node)).markupStatements style)
      (m.markup style).document := by
  have hshown := isBlankText_of_kind_ne hkind
  obtain ⟨xs, ys, rfl⟩ := List.append_of_mem hm
  refine Document.shows_ofList ?_
  rw [markupBody_append (fun n hn => hwell n (by simp [hn])),
    markupBody_cons_of_shown (hwell m hm) hshown, statementMarkup_of_kind_ne hkind]
  simp

/-- Children of which one is no text are printed, and show it. -/
lemma shows_childrenMarkup (hunit : Text.ink blank unit = []) {ns : List Node}
    (hwell : ∀ n ∈ ns, n.WellTyped) (hm : m ∈ ns) (hkind : m.kind ≠ .text) :
    Document.Shows blank unit
      (if Fault.yes (Value.list (ns.map .node)).hasContent
        then Markup.children ((Value.list (ns.map .node)).markupStatements style) else .empty)
      (m.markup style).document := by
  have hshown : shown ns ≠ [] := shown_ne_nil_iff.mpr ⟨m, hm, isBlankText_of_kind_ne hkind⟩
  have hpresent : (Value.list (ns.map .node)).hasContent = .ok true := by
    have hany := Value.anyPresent_map_node hwell
    rwa [List.isEmpty_eq_false_iff.mpr hshown] at hany
  rw [hpresent, Fault.yes, if_pos rfl]
  exact (Document.shows_children hunit _).trans (shows_markupStatements hwell hm hkind)

/-! ## Every kind of node -/

/-- A well-typed node shows the nodes directly below it, other than texts. -/
theorem shows_of_mem_children (hspacing : Text.CoversSpacing blank)
    (hunit : Text.ink blank unit = []) (h : n.WellTyped) (hm : m ∈ n.children)
    (hkind : m.kind ≠ .text) : n.Shows blank unit style m := by
  cases h with
  | path | string | boolean | null | text | comment => simp [children, fields] at hm
  | number h => simp [children, fields, Value.nodes_of_isNumber h] at hm
  | pair key =>
    obtain rfl : m = _ := by simpa [children, fields] using hm
    exact Document.shows_pair _ _
  | attr name =>
    obtain rfl : m = _ := by simpa [children, fields] using hm
    exact Document.shows_attr _ _ _
  | hash =>
    exact Document.shows_pairs (mem_markupItems (by simpa [children, fields] using hm))
  | concat =>
    exact Document.shows_concat (mem_markupItems (by simpa [children, fields] using hm))
  | subexpression hkinds hcallee hparams hnamed =>
    exact (Document.shows_subexpression hunit _).trans
      (shows_callMarkup hnamed hkinds.named (by simpa [children, fields] using hm))
  | mustache hkinds hcallee hparams hnamed =>
    exact (Document.shows_mustache hunit _ _).trans
      (shows_callMarkup hnamed hkinds.named (by simpa [children, fields] using hm))
  | modifier hkinds hcallee hparams hnamed =>
    exact (Document.shows_modifier _).trans
      (shows_callMarkup hnamed hkinds.named (by simpa [children, fields] using hm))
  | program hkinds hbody =>
    exact shows_markupStatements hbody (by simpa [children, fields] using hm) hkind
  | @block callee named content params inverse hkinds hcallee hparams hnamed hcontentKind hcontent
      hinverseKind hinverse =>
    have hmem : (m = callee ∨ m ∈ params ∨ m = named) ∨ m = content ∨ m ∈ inverse := by
      simpa [children, fields, or_assoc] using hm
    -- A block shows its call in its header, and its programs in its body and its inverse.
    rcases hmem with hcall | rfl | hshown
    · exact (Document.shows_block_header _ _ _ _).trans
        ((Document.shows_blockHeader hunit _ _).trans
          (shows_callMarkup hnamed hkinds.named hcall))
    · exact (Document.shows_block_body _ _ _ _).trans
        (shows_bodyMarkup hunit hcontent hcontentKind)
    · obtain rfl : inverse = some m := hshown
      exact (Document.shows_block_inverse _ _ _ _).trans
        ((Document.shows_blockInverse _).trans
          (shows_bodyMarkup hunit (hinverse m rfl) (hinverseKind m rfl)))
  | @element tag attributes modifiers children hattributeKinds hattributes hmodifierKinds
      hmodifiers hchildKinds hchildren =>
    have hmem : m ∈ attributes ∨ m ∈ modifiers ∨ m ∈ children := by
      simpa [Node.children, fields] using hm
    rcases hmem with hmem | hmem | hmem
    · exact (Document.shows_element_startTag _ _ _).trans
        ((Document.shows_startTag_attributes hspacing _ _ _ _).trans
          (shows_ifAny_markupItems Document.shows_attributes hmem))
    · exact (Document.shows_element_startTag _ _ _).trans
        ((Document.shows_startTag_modifiers hspacing _ _ _ _).trans
          (shows_ifAny_markupItems (Document.shows_modifiers _) hmem))
    · exact (Document.shows_element_children _ _ _).trans
        (shows_childrenMarkup hunit hchildren hmem hkind)

/-- A well-typed tree shows whatever occurs in it, other than texts. -/
theorem shows_of_occurs (hspacing : Text.CoversSpacing blank) (hunit : Text.ink blank unit = [])
    (h : n.WellTyped) (hm : m.Occurs n) (hkind : m.kind ≠ .text) : n.Shows blank unit style m := by
  induction hm with
  | here => exact Document.Shows.refl _
  | @inside child n hchild hbelow ih =>
    have hwell := h.of_mem_children hchild
    have hchildKind : child.kind ≠ .text := by
      intro htext
      exact hkind (hbelow.eq_of_text hwell htext ▸ htext)
    exact (shows_of_mem_children hspacing hunit h hchild hchildKind).trans (ih hwell)

end Node

end GlimmerFormat
