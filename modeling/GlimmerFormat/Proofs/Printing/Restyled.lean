import GlimmerFormat.Printing.Node
import GlimmerFormat.Proofs.Document.Restyled
import GlimmerFormat.Proofs.Traced
import GlimmerFormat.Proofs.Tree.Literals
import GlimmerFormat.Proofs.Tree.Nodes

/-!
# Printing in two quote styles

A tree, well-typed or not, is printed in both quote styles alike: either both runs meet the same
fault, or they give documents that differ in the quotes around the literals of the tree alone.

* `Document.Restyled.call`, `Document.Restyled.mustache` and so on: the markup of restyled parts.
* `Node.agree_print`: the two runs over a node agree, with its literals.
-/

namespace GlimmerFormat

open Markup (QuoteStyle)
open Document (Restyled AreRestyled)
open Traced

/-- What is printed only where there is something to print agrees, if nothing is printed only
where there are no literals. -/
lemma Logged.agree_ifAny {ls : List String} {count : Except Fault Nat} {x y : Logged Document}
    (h : Agree (Restyled ls) x y) (hnone : count = .ok 0 → ls = []) :
    Agree (Restyled ls) (Logged.ifAny count x) (Logged.ifAny count y) := by
  refine agree_bind ?_
  intro k hk
  by_cases hpos : 0 < k
  · rw [if_pos hpos, if_pos hpos]
    exact h
  · obtain rfl : k = 0 := by omega
    rw [hnone hk]
    exact agree_pure .empty

/-! ## Templates -/

namespace Document

variable {ls ms : List String} {d e d' e' : Document} {ds es : List Document}

/-- Parameters by position differ between the styles in each of them alone. -/
lemma AreRestyled.positional (h : AreRestyled ls ds es) :
    Restyled ls (Markup.positional ds) (Markup.positional es) := by
  have hparts : AreRestyled ls [line, joined line ds] [line, joined line es] :=
    .cons restyled_line (.singleton h.joined_line)
  exact hparts.ofList.grouped

namespace Restyled

/-- Behind those by position, parameters by name differ between the styles as by themselves. -/
lemma named (h : Restyled ls d e) : Restyled ls (Markup.named d) (Markup.named e) := by
  have hparts : AreRestyled ls [line, d] [line, e] := .cons restyled_line (.singleton h)
  exact hparts.ofList

/-- A call differs between the styles in its callee and its parameters alone. -/
lemma call {ks : List String} {callee callee' : Document} (hcallee : Restyled ks callee callee')
    (hpositional : Restyled ls d e) (hnamed : Restyled ms d' e') :
    Restyled (ks ++ ls ++ ms) (Markup.call callee d d') (Markup.call callee' e e') := by
  have hparts : AreRestyled (ks ++ (ls ++ ms)) [callee, d, d'] [callee', e, e'] :=
    .cons hcallee (.cons hpositional (.singleton hnamed))
  rw [List.append_assoc]
  exact hparts.ofList.grouped

/-- A parameter by name differs between the styles in its value alone. -/
lemma pair {key : Document} (hkey : Restyled [] key key) (h : Restyled ls d e) :
    Restyled ls (Markup.pair key d) (Markup.pair key e) := by
  have hparts : AreRestyled ls [key, ofString "=", d] [key, ofString "=", e] :=
    .cons hkey (.cons (restyled_ofString _) (.singleton h))
  exact hparts.ofList

/-- Something between two texts. -/
lemma between (opening closing : String) (h : Restyled ls d e) :
    Restyled ls (Document.ofList [opening, d, closing]).grouped
      (Document.ofList [opening, e, closing]).grouped := by
  have hparts : AreRestyled ls [ofString opening, d, ofString closing]
      [ofString opening, e, ofString closing] :=
    .cons (restyled_ofString _) (.cons_plain h (.singleton (restyled_ofString _)))
  exact hparts.ofList.grouped

/-- A call inside another one differs between the styles as the call does. -/
lemma subexpression (h : Restyled ls d e) :
    Restyled ls (Markup.subexpression d) (Markup.subexpression e) := by
  have hparts : AreRestyled ls [ofString "(", d.indented, softline, ofString ")"]
      [ofString "(", e.indented, softline, ofString ")"] :=
    .cons (restyled_ofString _) (.cons_plain h.indented
      (.cons restyled_softline (.singleton (restyled_ofString _))))
  exact hparts.ofList.grouped

/-- An inserted value differs between the styles as its call does. -/
lemma mustache (escaped : Bool) (h : Restyled ls d e) :
    Restyled ls (Markup.mustache escaped d) (Markup.mustache escaped e) := by
  cases escaped with
  | true => exact h.indented.between _ _
  | false => exact h.indented.between _ _

/-- A modifier differs between the styles as its call does. -/
lemma modifier (h : Restyled ls d e) : Restyled ls (Markup.modifier d) (Markup.modifier e) :=
  h.between _ _

/-- The quote around the texts of attributes is the same in both styles. -/
lemma quote : Restyled [] Markup.quote Markup.quote :=
  .text _

/-- An attribute differs between the styles in its value alone. -/
lemma attr {name : Document} (hname : Restyled [] name name) (quoted : Bool)
    (h : Restyled ls d e) :
    Restyled ls (Markup.attr name quoted d) (Markup.attr name quoted e) := by
  cases quoted with
  | true =>
    have hparts : AreRestyled ls [name, ofString "=", Markup.quote, d, Markup.quote]
        [name, ofString "=", Markup.quote, e, Markup.quote] :=
      .cons hname (.cons (restyled_ofString _) (.cons quote (.cons_plain h (.singleton quote))))
    exact hparts.ofList
  | false =>
    have hparts : AreRestyled ls [name, ofString "=", d] [name, ofString "=", e] :=
      .cons hname (.cons (restyled_ofString _) (.singleton h))
    exact hparts.ofList

/-- The body of a block differs between the styles as its statements do. -/
lemma blockBody (h : Restyled ls d e) : Restyled ls (Markup.blockBody d) (Markup.blockBody e) := by
  have hparts : AreRestyled ls [.hardline, d] [.hardline, e] := .cons .hardline (.singleton h)
  exact hparts.ofList.indented

/-- The inverse of a block differs between the styles as its body does. -/
lemma blockInverse (h : Restyled ls d e) :
    Restyled ls (Markup.blockInverse d) (Markup.blockInverse e) := by
  have hparts : AreRestyled ls [.hardline, ofString "\x7b\x7belse\x7d\x7d", d]
      [.hardline, ofString "\x7b\x7belse\x7d\x7d", e] :=
    .cons .hardline (.cons (restyled_ofString _) (.singleton h))
  exact hparts.ofList

/-- The header of a block differs between the styles as its call does. -/
lemma blockHeader {names names' : Document} (hnames : Restyled [] names names')
    (h : Restyled ls d e) :
    Restyled ls (Markup.blockHeader d names) (Markup.blockHeader e names') := by
  have hinside : AreRestyled ls [d, names] [e, names'] := .cons_plain h (.singleton hnames)
  have hend : AreRestyled [] [softline, ofString "\x7d\x7d"] [softline, ofString "\x7d\x7d"] :=
    .cons restyled_softline (.singleton (restyled_ofString _))
  have hparts := AreRestyled.cons (restyled_ofString "\x7b\x7b#")
    (.cons_plain hinside.ofList.indented hend)
  exact hparts.ofList.grouped

/-- A block differs between the styles as its parts do, in order. -/
lemma block {hs bs is cs : List String} {header header' body body' inverse inverse' callee callee' :
    Document} (hheader : Restyled hs header header') (hbody : Restyled bs body body')
    (hinverse : Restyled is inverse inverse') (hcallee : Restyled cs callee callee') :
    Restyled (hs ++ bs ++ is ++ cs) (Markup.block header body inverse callee)
      (Markup.block header' body' inverse' callee') := by
  have hend : AreRestyled cs [.hardline, ofString "\x7b\x7b/", callee, ofString "\x7d\x7d"]
      [.hardline, ofString "\x7b\x7b/", callee', ofString "\x7d\x7d"] :=
    .cons .hardline (.cons (restyled_ofString _)
      (.cons_plain hcallee (.singleton (restyled_ofString _))))
  have hparts := AreRestyled.cons hheader (.cons hbody (.cons hinverse hend))
  rw [List.append_assoc, List.append_assoc]
  exact hparts.ofList.grouped

/-- A start tag differs between the styles in its attributes and then its modifiers. -/
lemma startTag (name : String) (selfCloses : Bool) (hattributes : Restyled ls d e)
    (hmodifiers : Restyled ms d' e') :
    Restyled (ls ++ ms) (Markup.startTag name d d' selfCloses)
      (Markup.startTag name e e' selfCloses) := by
  have hinside : AreRestyled (ls ++ ms) [d, d'] [e, e'] :=
    .cons hattributes (.singleton hmodifiers)
  have hmark : Restyled [] (if selfCloses then ofString " />" else ofString ">")
      (if selfCloses then ofString " />" else ofString ">") := by
    split
    · exact restyled_ofString _
    · exact restyled_ofString _
  have hparts := AreRestyled.cons (restyled_ofString "<") (.cons (restyled_ofString name)
    (.cons_plain (hinside.ofList.aligned (name.length + 2)) (.singleton hmark)))
  exact hparts.ofList.grouped

/-- Children differ between the styles as the statements that they are. -/
lemma children (h : Restyled ls d e) : Restyled ls (Markup.children d) (Markup.children e) := by
  have hparts : AreRestyled ls [softline, d] [softline, e] := .cons restyled_softline (.singleton h)
  exact hparts.ofList.indented

/-- An element differs between the styles in its start tag and then its children. -/
lemma element {endTag : Document} (hend : Restyled [] endTag endTag)
    (hstart : Restyled ls d e) (hchildren : Restyled ms d' e') :
    Restyled (ls ++ ms) (Markup.element d d' endTag) (Markup.element e e' endTag) := by
  have hparts := AreRestyled.cons hstart (.cons_plain hchildren (.singleton hend))
  exact hparts.ofList.grouped

end Restyled

/-- A quoted value differs between the styles as its parts do. -/
lemma AreRestyled.quoted (h : AreRestyled ls ds es) :
    Restyled ls (Markup.concat ds) (Markup.concat es) := by
  have hquotes : AreRestyled ls ([Markup.quote] ++ ds ++ [Markup.quote])
      ([Markup.quote] ++ es ++ [Markup.quote]) := by
    have hopening := AreRestyled.append (.singleton .quote) h
    have hboth := hopening.append (.singleton .quote)
    rwa [List.append_nil] at hboth
  exact hquotes.ofList.grouped

/-- The attributes of an element differ between the styles in each of them alone. -/
lemma AreRestyled.attributes (h : AreRestyled ls ds es) :
    Restyled ls (Markup.attributes ds) (Markup.attributes es) := by
  have hparts : AreRestyled ls [ofString " ", joined line ds] [ofString " ", joined line es] :=
    .cons (restyled_ofString _) (.singleton h.joined_line)
  exact hparts.ofList

/-- The modifiers of an element differ between the styles in each of them alone. -/
lemma AreRestyled.modifiers (afterAttributes : Bool) (h : AreRestyled ls ds es) :
    Restyled ls (Markup.modifiers afterAttributes ds) (Markup.modifiers afterAttributes es) := by
  have hstart : Restyled [] (if afterAttributes then line else ofString " ")
      (if afterAttributes then line else ofString " ") := by
    split
    · exact restyled_line
    · exact restyled_ofString _
  have hparts := AreRestyled.cons hstart (.singleton h.joined_line)
  exact hparts.ofList

/-- A comment is the same in both styles. -/
lemma restyled_comment (text : String) :
    Restyled [] (Markup.comment text) (Markup.comment text) := by
  have hinside : AreRestyled [] [line, paragraph text] [line, paragraph text] :=
    .cons restyled_line (.singleton (restyled_paragraph text))
  have hparts := AreRestyled.cons (restyled_ofString "\x7b\x7b!")
    (.cons hinside.ofList.indented
      (.cons restyled_line (.singleton (restyled_ofString "\x7d\x7d"))))
  exact hparts.ofList.grouped

/-- An end tag is the same in both styles. -/
lemma restyled_endTag (name : String) : Restyled [] (Markup.endTag name) (Markup.endTag name) := by
  have hparts := AreRestyled.cons restyled_softline (.cons (restyled_ofString "</")
    (.cons (restyled_ofString name) (.singleton (restyled_ofString ">"))))
  exact hparts.ofList

/-- What separates statements is the same in both styles. -/
lemma restyled_separator (isText : Bool) :
    Restyled [] (Markup.separator isText) (Markup.separator isText) := by
  cases isText with
  | true => exact restyled_softline
  | false => exact .hardline

end Document

/-- A value among documents is the same in both styles. -/
lemma Value.restyled_document (v : Value) : Restyled [] v.document v.document := by
  cases v with
  | null => exact .empty
  | str s => exact Document.restyled_ofString s
  | _ => exact .stray _

/-- The names of a block are the same in both styles. -/
lemma Document.restyled_blockParams (vs : List Value) :
    Restyled [] (Markup.blockParams (vs.map Value.document))
      (Markup.blockParams (vs.map Value.document)) := by
  have hnames : AreRestyled [] (vs.map Value.document) (vs.map Value.document) := by
    refine .of_forall ?_
    intro d hd
    obtain ⟨v, -, rfl⟩ := List.mem_map.mp hd
    exact v.restyled_document
  have hparts := AreRestyled.cons restyled_line (.cons (restyled_ofString "as |")
    (.cons hnames.joined_line (.singleton (restyled_ofString "|"))))
  exact hparts.ofList

/-! ## Values -/

/-- Parts that differ in the quotes around the given literals alone. -/
def Part.Restyled (ls : List String) (p q : Part) : Prop :=
  Document.Restyled ls p.document q.document

/-- At every depth, a node is printed in the two styles alike, with its literals. -/
def Node.PrintsAlike (n : Node) : Prop :=
  ∀ depth, Agree (Part.Restyled n.literals) (n.print .single depth) (n.print .double depth)

namespace Value

/-- At every depth, a value is printed in the two styles alike, with its literals. -/
def PrintsAlike (v : Value) : Prop :=
  ∀ depth, Agree (Part.Restyled v.literals) (v.print .single depth) (v.print .double depth)

/-- A value is printed alike if the nodes in it are. -/
lemma printsAlike_of_nodes {v : Value} (h : ∀ m ∈ v.nodes, m.PrintsAlike) : v.PrintsAlike := by
  intro depth
  cases v with
  | null => exact agree_pure .empty
  | node n =>
    refine agree_bind ?_
    intro _ _
    exact h n (mem_nodes_node.mpr rfl) depth
  | bool b | int m | float x | str s | list items | object entries =>
    refine agree_bind ?_
    intro _ _
    refine agree_bind ?_
    intro _ _
    exact agree_fail _

/-- Values are printed alike one after the other if each of them is. -/
lemma agree_printAll {vs : List Value} (h : ∀ v ∈ vs, v.PrintsAlike) (depth : Nat) :
    Agree (fun ps qs => AreRestyled (literalsAll vs) (ps.map Part.document) (qs.map Part.document))
      (printAll .single depth vs) (printAll .double depth vs) := by
  induction vs with
  | nil => exact agree_pure .nil
  | cons v vs ih =>
    refine (h v (by simp) depth).bind ?_
    intro p q hfirst
    refine (ih fun w hw => h w (by simp [hw])).bind ?_
    intro ps qs hothers
    exact agree_pure (.cons hfirst hothers)

/-- The items in a field are printed alike if the nodes in it are. -/
lemma agree_printItems {v : Value} (h : ∀ m ∈ v.nodes, m.PrintsAlike) (depth : Nat) (kind : Kind)
    (field : String) :
    Agree (fun ps qs => AreRestyled v.literals (ps.map Part.document) (qs.map Part.document))
      (v.printItems .single depth kind field) (v.printItems .double depth kind field) := by
  cases v with
  | list items =>
    refine agree_printAll ?_ depth
    intro v hv
    exact printsAlike_of_nodes fun m hm => h m (mem_nodes_list.mpr ⟨v, hv, hm⟩)
  | _ => exact agree_fail _

/-- Statements are printed alike one after the other if each of them is. -/
lemma agree_printBody {vs : List Value} (h : ∀ v ∈ vs, v.PrintsAlike) (depth : Nat)
    (after : Bool) :
    Agree (AreRestyled (literalsAll vs)) (printBody .single depth after vs)
      (printBody .double depth after vs) := by
  induction vs generalizing after with
  | nil => exact agree_pure .nil
  | cons v vs ih =>
    have hothers := fun after => ih (fun w hw => h w (by simp [hw])) after
    rw [printBody, printBody]
    refine agree_bind ?_
    intro blank hblank
    cases blank with
    | true =>
      rw [literalsAll, literals_of_isBlankNode hblank]
      exact hothers after
    | false =>
      have hseparator : AreRestyled [] (if after then [Markup.separator v.isTextNode] else [])
          (if after then [Markup.separator v.isTextNode] else []) := by
        split
        · exact .singleton (Document.restyled_separator _)
        · exact .nil
      have hbehind : ∀ d e, Restyled v.literals d e → Agree (AreRestyled (literalsAll (v :: vs)))
          (do
            let others ← printBody .single depth true vs
            return (if after then [Markup.separator v.isTextNode] else []) ++ d :: others)
          (do
            let others ← printBody .double depth true vs
            return (if after then [Markup.separator v.isTextNode] else []) ++ e :: others) := by
        intro d e hfirst
        refine (hothers true).bind ?_
        intro ds es hrest
        exact agree_pure (hseparator.append (.cons hfirst hrest))
      have hprinted : Agree (Restyled v.literals) (Part.document <$> v.print .single depth)
          (Part.document <$> v.print .double depth) :=
        (h v (by simp) depth).map fun p q hpq => hpq
      rw [if_neg Bool.false_ne_true, if_neg Bool.false_ne_true]
      generalize (if after then [Markup.separator v.isTextNode] else []) = separator at *
      -- Text is reflowed, and all else is printed.
      split
      · next s =>
        have htext : Agree (Restyled []) (pure (Document.paragraph s) : Logged Document)
            (pure (Document.paragraph s)) := agree_pure (Document.restyled_paragraph s)
        exact htext.bind hbehind
      · exact hprinted.bind hbehind

/-- The statements in a field are printed alike if the nodes in it are. -/
lemma agree_printStatements {v : Value} (h : ∀ m ∈ v.nodes, m.PrintsAlike) (depth : Nat)
    (kind : Kind) (field : String) :
    Agree (Restyled v.literals) (v.printStatements .single depth kind field)
      (v.printStatements .double depth kind field) := by
  cases v with
  | list items =>
    have hitems : ∀ v ∈ items, v.PrintsAlike := fun v hv =>
      printsAlike_of_nodes fun m hm => h m (mem_nodes_list.mpr ⟨v, hv, hm⟩)
    exact (agree_printBody hitems depth false).map fun ds es hds => hds.ofList
  | _ => exact agree_fail _

/-- A literal is printed alike, between one quote or the other. -/
lemma agree_quotedLiteral (v : Value) :
    Agree (Part.Restyled v.quotable)
      (Traced.ofExcept (v.quotedLiteral QuoteStyle.single.mark) : Logged Part)
      (Traced.ofExcept (v.quotedLiteral QuoteStyle.double.mark)) := by
  cases v with
  | str s =>
    have hquotes : (Value.str s).containsQuote = .ok (Text.holdsQuote s) := rfl
    rw [quotedLiteral, quotedLiteral, hquotes, quotable]
    cases hs : Text.holdsQuote s with
    | true => exact agree_pure (Document.restyled_ofString s)
    | false =>
      refine agree_pure ?_
      have hsingle := Document.ofString_of_ne (QuoteStyle.around_ne_empty .single s)
      have hdouble := Document.ofString_of_ne (QuoteStyle.around_ne_empty .double s)
      rw [Part.Restyled, Part.document_str, Part.document_str, ← QuoteStyle.around,
        ← QuoteStyle.around, hsingle, hdouble]
      exact .literal hs
  | list items | object entries =>
    -- What contains a quote without being a text is no document, and the rest is no text.
    unfold quotedLiteral
    rw [containsQuote]
    cases List.any _ _ with
    | true => exact agree_pure (.stray _)
    | false => exact agree_fail _
  | _ => exact agree_fail _

end Value

/-! ## Calls, blocks and elements -/

variable {ls : List String}

/-- The items in a field are printed alike between some markup, where there are some. -/
lemma agree_ifAny_printItems {v : Value} (h : ∀ m ∈ v.nodes, m.PrintsAlike)
    {markup : List Document → Document}
    (hmarkup : ∀ ds es, AreRestyled v.literals ds es → Restyled v.literals (markup ds) (markup es))
    (depth : Nat) (kind : Kind) (field : String) :
    Agree (Restyled v.literals)
      (Logged.ifAny v.count do
        return markup ((← v.printItems .single depth kind field).map Part.document))
      (Logged.ifAny v.count do
        return markup ((← v.printItems .double depth kind field).map Part.document)) := by
  refine Logged.agree_ifAny ?_ Value.literals_of_count
  refine (Value.agree_printItems h depth kind field).bind ?_
  intro ps qs hps
  exact agree_pure (hmarkup _ _ hps)

/-- A call is printed alike if its parts are. -/
lemma agree_callDocument {callee callee' : Logged Part}
    (hcallee : Agree (Part.Restyled ls) callee callee') {params named : Value}
    (hparams : ∀ m ∈ params.nodes, m.PrintsAlike) (hnamed : ∀ m ∈ named.nodes, m.PrintsAlike)
    (depth depth' : Nat) (kind : Kind) :
    Agree (Restyled (ls ++ params.literals ++ named.literals))
      (callDocument callee params (params.printItems .single depth kind "params") named
        (named.print .single depth'))
      (callDocument callee' params (params.printItems .double depth kind "params") named
        (named.print .double depth')) := by
  refine hcallee.bind ?_
  intro head head' hhead
  have hpositional := agree_ifAny_printItems hparams (fun _ _ h => h.positional) depth kind "params"
  refine hpositional.bind ?_
  intro d e hde
  have hbyName : Agree (Restyled named.literals)
      (Logged.ifAny named.pairCount do return Markup.named (← named.print .single depth'))
      (Logged.ifAny named.pairCount do return Markup.named (← named.print .double depth')) := by
    refine Logged.agree_ifAny ?_ Value.literals_of_pairCount
    refine (Value.printsAlike_of_nodes hnamed depth').bind ?_
    intro p q hpq
    exact agree_pure hpq.named
  have hbehind : ∀ d' e', Restyled named.literals d' e' →
      Agree (Restyled (ls ++ params.literals ++ named.literals))
        (pure (Markup.call head d d') : Logged Document) (pure (Markup.call head' e e')) :=
    fun d' e' hde' => agree_pure (.call hhead hde hde')
  split
  · have hnothing : Agree (Restyled []) (pure .empty : Logged Document) (pure .empty) :=
      agree_pure .empty
    exact hnothing.bind hbehind
  · exact hbyName.bind hbehind

/-- The body of a program is printed alike, where it has statements. -/
lemma agree_blockBody {content : Value} (h : ∀ m ∈ content.nodes, m.PrintsAlike) (depth : Nat) :
    Agree (Restyled content.literals)
      (Logged.ifAny content.bodyCount do
        return Markup.blockBody (← content.print .single depth))
      (Logged.ifAny content.bodyCount do
        return Markup.blockBody (← content.print .double depth)) := by
  refine Logged.agree_ifAny ?_ Value.literals_of_bodyCount
  refine (Value.printsAlike_of_nodes h depth).bind ?_
  intro p q hpq
  exact agree_pure hpq.blockBody

/-- A block is printed alike if its parts are. -/
lemma agree_blockDocument {callee callee' : Logged Part} {ks : List String}
    (hcallee : Agree (Part.Restyled ks) callee callee') {call call' : Logged Document}
    (hcall : Agree (Restyled ls) call call') {content inverse : Value}
    (hcontent : ∀ m ∈ content.nodes, m.PrintsAlike)
    (hinverse : ∀ m ∈ inverse.nodes, m.PrintsAlike) (depth : Nat) :
    Agree (Restyled (ls ++ content.literals ++ inverse.literals ++ ks))
      (blockDocument callee call content inverse (content.print .single depth)
        (inverse.print .single depth))
      (blockDocument callee' call' content inverse (content.print .double depth)
        (inverse.print .double depth)) := by
  refine agree_bind ?_
  intro names _
  refine hcall.bind ?_
  intro c c' hc
  have hclause : Agree (Restyled [])
      (Logged.ifAny names.count do
        return Markup.blockParams ((← Traced.ofExcept names.elements).map Value.document))
      (Logged.ifAny names.count do
        return Markup.blockParams ((← Traced.ofExcept names.elements).map Value.document)) := by
    refine Logged.agree_ifAny ?_ fun _ => rfl
    refine agree_bind ?_
    intro vs _
    exact agree_pure (Document.restyled_blockParams vs)
  refine hclause.bind ?_
  intro k k' hk
  refine (agree_blockBody hcontent depth).bind ?_
  intro b b' hb
  have hotherwise : Agree (Restyled inverse.literals)
      (Markup.blockInverse <$> Logged.ifAny inverse.bodyCount do
        return Markup.blockBody (← inverse.print .single depth))
      (Markup.blockInverse <$> Logged.ifAny inverse.bodyCount do
        return Markup.blockBody (← inverse.print .double depth)) :=
    (agree_blockBody hinverse depth).map fun d e hde => hde.blockInverse
  have hbehind : ∀ i i', Restyled inverse.literals i i' →
      Agree (Restyled (ls ++ content.literals ++ inverse.literals ++ ks))
        (do
          let closing ← callee
          return Markup.block (Markup.blockHeader c k) b i closing)
        (do
          let closing ← callee'
          return Markup.block (Markup.blockHeader c' k') b' i' closing) := by
    intro i i' hi
    refine hcallee.bind ?_
    intro p q hpq
    exact agree_pure (.block (.blockHeader hk hc) hb hi hpq)
  split
  · have hnothing : Agree (Restyled []) (pure .empty : Logged Document) (pure .empty) :=
      agree_pure .empty
    exact hnothing.bind hbehind
  · exact hotherwise.bind hbehind

/-- An element is printed alike if its parts are. -/
lemma agree_elementDocument (tag : Value) {attributes modifiers children : Value}
    (hattributes : ∀ m ∈ attributes.nodes, m.PrintsAlike)
    (hmodifiers : ∀ m ∈ modifiers.nodes, m.PrintsAlike)
    (hchildren : ∀ m ∈ children.nodes, m.PrintsAlike) (depth : Nat) :
    Agree (Restyled (attributes.literals ++ modifiers.literals ++ children.literals))
      (elementDocument tag attributes
        (attributes.printItems .single depth .element "attributes") modifiers
        (modifiers.printItems .single depth .element "modifiers") children
        (children.printStatements .single depth .element "children"))
      (elementDocument tag attributes
        (attributes.printItems .double depth .element "attributes") modifiers
        (modifiers.printItems .double depth .element "modifiers") children
        (children.printStatements .double depth .element "children")) := by
  refine agree_bind ?_
  intro selfCloses _
  refine (agree_ifAny_printItems hattributes (fun _ _ h => h.attributes) depth .element
    "attributes").bind ?_
  intro a a' ha
  refine (agree_ifAny_printItems hmodifiers (fun _ _ h => h.modifiers _) depth .element
    "modifiers").bind ?_
  intro m m' hm
  refine agree_bind ?_
  intro name _
  refine agree_bind ?_
  intro hasContent hcontent
  have hend : Restyled [] (if selfCloses then .empty else Markup.endTag name)
      (if selfCloses then .empty else Markup.endTag name) := by
    split
    · exact .empty
    · exact Document.restyled_endTag name
  have hbehind : ∀ c c', Restyled children.literals c c' →
      Agree (Restyled (attributes.literals ++ modifiers.literals ++ children.literals))
        (pure (Markup.element (Markup.startTag name a m selfCloses) c
          (if selfCloses then .empty else Markup.endTag name)) : Logged Document)
        (pure (Markup.element (Markup.startTag name a' m' selfCloses) c'
          (if selfCloses then .empty else Markup.endTag name))) :=
    fun c c' hc => agree_pure (.element hend (.startTag name selfCloses ha hm) hc)
  cases hasContent with
  | true =>
    have hprinted := Value.agree_printStatements hchildren depth .element "children"
    have hcontent : Agree (Restyled children.literals)
        (Markup.children <$> children.printStatements .single depth .element "children")
        (Markup.children <$> children.printStatements .double depth .element "children") :=
      hprinted.map fun d e hde => hde.children
    exact hcontent.bind hbehind
  | false =>
    rw [Value.literals_of_hasContent hcontent] at hbehind ⊢
    have hnothing : Agree (Restyled []) (pure .empty : Logged Document) (pure .empty) :=
      agree_pure .empty
    exact hnothing.bind hbehind

/-! ## Every node -/

/-- Every node, well-typed or not, is printed alike in the two styles, with its literals. -/
theorem Node.agree_print (n : Node) : n.PrintsAlike := by
  induction n using Node.inductionOn with
  | path whole parts =>
    intro depth
    have hname : Agree Eq (Traced.ofExcept parts.dotted : Logged String)
        (Traced.ofExcept parts.dotted) := agree_self fun _ _ => rfl
    refine hname.map ?_
    rintro s _ rfl
    exact Document.restyled_ofString s
  | string value => exact fun _ => Value.agree_quotedLiteral value
  | number value | boolean value | null => exact fun _ => agree_pure (Document.restyled_ofString _)
  | pair key value ih =>
    intro depth
    refine (Value.printsAlike_of_nodes ih (depth + 1)).bind ?_
    intro p q hpq
    exact agree_pure (.pair key.restyled_document hpq)
  | hash pairs ih =>
    intro depth
    refine (Value.agree_printItems ih (depth + 2) .hash "pairs").bind ?_
    intro ps qs hps
    exact agree_pure hps.joined_line
  | subexpression callee params named ihc ihp ihn =>
    intro depth
    have hcallee := Value.printsAlike_of_nodes ihc (depth + 1)
    refine (agree_callDocument hcallee ihp ihn (depth + 2) (depth + 1) .subexpression).bind ?_
    intro d e hde
    exact agree_pure hde.subexpression
  | text chars => exact fun _ => agree_pure chars.restyled_document
  | mustache callee params named escaped ihc ihp ihn =>
    intro depth
    have hcallee := Value.printsAlike_of_nodes ihc (depth + 1)
    refine (agree_callDocument hcallee ihp ihn (depth + 2) (depth + 1) .mustache).bind ?_
    intro d e hde
    exact agree_pure (hde.mustache _)
  | comment value =>
    intro depth
    refine agree_bind ?_
    intro text _
    exact agree_pure (Document.restyled_comment text)
  | modifier callee params named ihc ihp ihn =>
    intro depth
    have hcallee := Value.printsAlike_of_nodes ihc (depth + 1)
    refine (agree_callDocument hcallee ihp ihn (depth + 2) (depth + 1) .modifier).bind ?_
    intro d e hde
    exact agree_pure hde.modifier
  | concat parts ih =>
    intro depth
    refine (Value.agree_printItems ih (depth + 2) .concat "parts").bind ?_
    intro ps qs hps
    exact agree_pure hps.quoted
  | attr name value ih =>
    intro depth
    refine (Value.printsAlike_of_nodes ih (depth + 1)).bind ?_
    intro p q hpq
    exact agree_pure (.attr name.restyled_document _ hpq)
  | program body names ih =>
    intro depth
    refine (Value.agree_printStatements ih (depth + 2) .program "body").bind ?_
    intro d e hde
    exact agree_pure hde
  | block callee params named content inverse ihc ihp ihn ihcontent ihinverse =>
    intro depth
    have hcallee := Value.printsAlike_of_nodes ihc (depth + 1)
    have hcall := agree_callDocument hcallee ihp ihn (depth + 2) (depth + 1) .block
    refine (agree_blockDocument hcallee hcall ihcontent ihinverse (depth + 1)).bind ?_
    intro d e hde
    exact agree_pure hde
  | element tag attributes modifiers children names iha ihm ihc =>
    intro depth
    refine (agree_elementDocument tag iha ihm ihc (depth + 2)).bind ?_
    intro d e hde
    exact agree_pure hde

end GlimmerFormat
