import GlimmerFormat.Proofs.Document.Normal
import GlimmerFormat.Proofs.Format.Outcomes
import GlimmerFormat.Proofs.Printing.Walking
import GlimmerFormat.Proofs.Tree.Occurs

/-!
# Statements put together

Statements are printed one after the other, blank texts left out and a separator put before each
that is shown but the first.  Printing two lists of statements in a row therefore comes to printing
each of them and putting a separator in between.  What the separator is depends on the statement
behind it alone.

Printing puts the documents of the statements together, and so the documents of two lists are put
together twice.  That makes no difference since whatever is printed is spliced.

* `Node.ensures_print`: what is printed is spliced, whatever the tree holds.
* `Value.shown`: the statements without the blank texts among them.
* `Value.printStatements_append`: the statements of two lists in a row, and blank texts left out.
-/

namespace GlimmerFormat

open Document (ofList softline isSpliced_empty isSpliced_grouped isSpliced_joined isSpliced_line
  isSpliced_ofList isSpliced_ofString)
open Markup (QuoteStyle)
open Traced (ensures_bind ensures_fail ensures_of_forall ensures_pure)

/-! ## What is printed is spliced -/

/-- A part that is spliced as a document. -/
abbrev Part.IsSpliced (part : Part) : Prop :=
  part.document.IsSpliced

namespace Value

variable {style : QuoteStyle} {depth : Nat}

/-- A value that stands among documents by itself is spliced. -/
lemma isSpliced_part (v : Value) : v.part.IsSpliced := by
  cases v with
  | null => exact isSpliced_empty
  | str s => exact isSpliced_ofString s
  | _ => exact Document.IsPiece.isSpliced trivial

/-- A literal is a text, or it is no document. -/
lemma isSpliced_of_quotedLiteral {quote : String} {v : Value} {part : Part}
    (h : v.quotedLiteral quote = .ok part) : part.IsSpliced := by
  rcases quotedLiteral_cases h with ⟨s, rfl⟩ | rfl
  · exact isSpliced_ofString s
  · exact Document.IsPiece.isSpliced trivial

/-- Values printed in order are spliced if each of them is. -/
lemma ensures_printAll {vs : List Value}
    (h : ∀ v ∈ vs, (v.print style depth).Ensures Part.IsSpliced) :
    (printAll style depth vs).Ensures fun parts => ∀ d ∈ parts.map Part.document, d.IsSpliced := by
  induction vs with
  | nil =>
    rw [printAll]
    exact ensures_pure (by simp)
  | cons v vs ih =>
    rw [printAll]
    have hothers := ih fun w hw => h w (by simp [hw])
    refine (h v (by simp)).bind fun printed hprinted => hothers.bind fun others hothers => ?_
    exact ensures_pure (List.forall_mem_cons.mpr ⟨hprinted, hothers⟩)

/-- The documents of statements and the separators between them. -/
lemma ensures_printBody {vs : List Value}
    (h : ∀ v ∈ vs, (v.print style depth).Ensures Part.IsSpliced) (after : Bool) :
    (printBody style depth after vs).Ensures fun rows => ∀ d ∈ rows, d.IsSpliced := by
  induction vs generalizing after with
  | nil =>
    rw [printBody]
    exact ensures_pure (by simp)
  | cons v vs ih =>
    have hprinted : (v.printStatement style depth).Ensures Document.IsSpliced := by
      unfold printStatement
      split
      · exact ensures_pure (Document.isNormal_paragraph _).isSpliced
      · exact (h v (by simp)).map fun part hpart => hpart
    have hseparator : ∀ isText, (Markup.separator isText).IsSpliced := by
      intro isText
      cases isText <;> exact Document.IsPiece.isSpliced trivial
    have hrows : (v.statementRows style depth after).Ensures fun rows => ∀ d ∈ rows,
        d.IsSpliced := by
      refine ensures_bind fun blank => ?_
      cases blank with
      | true => exact ensures_pure (by simp)
      | false =>
        refine hprinted.bind fun printed hprinted => ensures_pure ?_
        cases after <;> simp [hprinted, hseparator]
    rw [printBody_cons]
    refine hrows.bind fun rows hrows => ?_
    have hothers := ih (fun w hw => h w (by simp [hw])) (after || !rows.isEmpty)
    exact hothers.bind fun others hothers =>
      ensures_pure (List.forall_mem_append.mpr ⟨hrows, hothers⟩)

end Value

namespace Node

variable {style : QuoteStyle} {n : Node} {name : String} {v : Value}

/-- An inserted value is spliced. -/
lemma isSpliced_mustache (escaped : Bool) (call : Document) :
    (Markup.mustache escaped call).IsSpliced := by
  rw [Markup.mustache]
  split <;> exact isSpliced_grouped _

/-- An attribute is spliced if its name and its value are. -/
lemma isSpliced_attr {name value : Document} (quoted : Bool) (hname : name.IsSpliced)
    (hvalue : value.IsSpliced) : (Markup.attr name quoted value).IsSpliced := by
  have hquote : Markup.quote.IsSpliced := Document.IsPiece.isSpliced trivial
  rw [Markup.attr]
  split <;> exact isSpliced_ofList (by simp [hname, hquote, hvalue, isSpliced_ofString])

/-- A block is a group, with an inverse or without. -/
lemma ensures_blockDocument {callee printedContent printedInverse : Logged Part}
    {call : Logged Document} {content inverse : Value} :
    (blockDocument callee call content inverse printedContent printedInverse).Ensures
      Document.IsSpliced := by
  refine ensures_bind fun blockParams => ensures_bind fun call => ?_
  refine ensures_bind fun clause => ensures_bind fun body => ?_
  -- Whatever stands in place of the inverse, the end of the block is printed behind it.
  cases inverse with
  | _ =>
    exact ensures_bind fun otherwise => ensures_bind fun closing =>
      ensures_pure (isSpliced_grouped _)

/-- An element is a group, with children or without. -/
lemma ensures_elementDocument {tag attributes modifiers children : Value}
    {printedAttributes printedModifiers : Logged (List Part)} {printedChildren : Logged Document} :
    (elementDocument tag attributes printedAttributes modifiers printedModifiers children
      printedChildren).Ensures Document.IsSpliced := by
  refine ensures_bind fun selfCloses => ensures_bind fun attributesDoc => ?_
  refine ensures_bind fun modifiersDoc => ensures_bind fun name => ?_
  refine ensures_bind fun hasContent => ?_
  cases hasContent with
  | _ => exact ensures_bind fun content => ensures_pure (isSpliced_grouped _)

section

variable (ih : ∀ m ∈ n.children, ∀ depth, (m.print style depth).Ensures Part.IsSpliced)

include ih

/-- What a node holds is printed as a spliced document, if its children are. -/
lemma ensures_print_held (hv : n.Holds v) (depth : Nat) :
    (v.print style depth).Ensures Part.IsSpliced := by
  cases v with
  | null => exact ensures_pure isSpliced_empty
  | node m => exact ensures_bind fun _ => ih m hv.mem_children depth
  | _ => exact ensures_bind fun _ => ensures_bind fun _ => ensures_fail _

/-- The items of a list field are printed as spliced parts. -/
lemma ensures_printItems (hv : n.field? name = some v) (depth : Nat) :
    (v.printItems style depth n.kind name).Ensures fun parts =>
      ∀ d ∈ parts.map Part.document, d.IsSpliced := by
  cases v with
  | list items => exact Value.ensures_printAll fun w hw => ensures_print_held ih (.item hv hw) depth
  | _ => exact ensures_fail _

/-- The statements of a list field are printed as a spliced document. -/
lemma ensures_printStatements (hv : n.field? name = some v) (depth : Nat) :
    (v.printStatements style depth n.kind name).Ensures Document.IsSpliced := by
  cases v with
  | list items =>
    have hbody := Value.ensures_printBody
      (fun w hw => ensures_print_held ih (.item hv hw) depth) false
    exact hbody.map fun rows hrows => isSpliced_ofList hrows
  | _ => exact ensures_fail _

end

/-- What a node is printed as is spliced, whatever its fields hold: a group, a text, or what is put
together of such documents. -/
theorem ensures_print (n : Node) (depth : Nat) :
    (n.print style depth).Ensures Part.IsSpliced := by
  induction n using inductionOnChildren generalizing depth with
  | step n ih =>
    have hfield (name : String) {v : Value} (hv : n.field? name = some v) :=
      ensures_print_held ih (.field hv) (depth + 1)
    have hitems (name : String) {v : Value} (hv : n.field? name = some v) :=
      ensures_printItems ih hv (depth + 2)
    have hstatements (name : String) {v : Value} (hv : n.field? name = some v) :=
      ensures_printStatements ih hv (depth + 2)
    have hgrouped (d : Document) : (Part.doc d.grouped).IsSpliced := isSpliced_grouped d
    cases n with
    | path => exact (ensures_of_forall fun s => isSpliced_ofString s).map fun s hs => hs
    | string => exact fun part hpart => Value.isSpliced_of_quotedLiteral hpart
    | number | boolean | null => exact ensures_pure (isSpliced_ofString _)
    | text chars => exact ensures_pure chars.isSpliced_part
    | comment | subexpression | modifier | concat =>
      exact ensures_bind fun _ => ensures_pure (hgrouped _)
    | mustache callee params named escaped =>
      exact ensures_bind fun call => ensures_pure (isSpliced_mustache escaped.isTruthy call)
    | block => exact ensures_blockDocument.bind fun d hd => ensures_pure hd
    | element => exact ensures_elementDocument.bind fun d hd => ensures_pure hd
    | pair key value =>
      have hkey : key.document.IsSpliced := key.isSpliced_part
      exact (hfield "value" rfl).bind fun printed hprinted =>
        ensures_pure (isSpliced_ofList (by simp [hkey, hprinted, isSpliced_ofString]))
    | attr name value =>
      have hname : name.document.IsSpliced := name.isSpliced_part
      exact (hfield "value" rfl).bind fun printed hprinted =>
        ensures_pure (isSpliced_attr value.isTextNode hname hprinted)
    | hash =>
      exact (hitems "pairs" rfl).bind fun printed hprinted =>
        ensures_pure (isSpliced_joined isSpliced_line hprinted)
    | program => exact (hstatements "body" rfl).bind fun d hd => ensures_pure hd

end Node

namespace Value

variable {style : QuoteStyle} {depth : Nat} {after : Bool} {v : Value} {vs xs ys : List Value}

/-- Whatever is printed is spliced. -/
lemma ensures_print (v : Value) (depth : Nat) :
    (v.print style depth).Ensures Part.IsSpliced := by
  cases v with
  | null => exact ensures_pure isSpliced_empty
  | node n => exact ensures_bind fun _ => n.ensures_print depth
  | _ => exact ensures_bind fun _ => ensures_bind fun _ => ensures_fail _

/-! ## Statements that are shown -/

/-- The statements that are more than blank text. -/
def shown (vs : List Value) : List Value :=
  vs.filter fun v => !Fault.yes v.isBlankNode

/-- A blank text in front is not among what is shown. -/
lemma shown_cons_of_blank (h : Fault.yes v.isBlankNode = true) : shown (v :: vs) = shown vs := by
  simp [shown, h]

/-- A statement in front that is no blank text is the first that is shown. -/
lemma shown_cons_of_not_blank (h : Fault.yes v.isBlankNode = false) :
    shown (v :: vs) = v :: shown vs := by
  simp [shown, h]

/-- No blank text is among what is shown. -/
lemma not_blank_of_mem_shown (h : v ∈ shown vs) : Fault.yes v.isBlankNode = false := by
  simpa using (List.mem_filter.mp h).2

/-- A blank text adds nothing. -/
lemma statementRows_of_blank (h : Fault.yes v.isBlankNode = true) :
    v.statementRows style depth after = pure [] := by
  unfold statementRows
  cases hblank : v.isBlankNode with
  | error e => rw [hblank] at h; cases h
  | ok blank =>
    rw [hblank] at h
    obtain rfl : blank = true := h
    rfl

/-- A statement that is shown adds what it is printed as, unless it cannot be told whether it is
blank. -/
lemma statementRows_of_not_blank (h : Fault.yes v.isBlankNode = false) :
    (∃ e, ∀ after, v.statementRows style depth after = Traced.fail e) ∨
      ∀ after, v.statementRows style depth after =
        (fun printed => (if after then [Markup.separator v.isTextNode] else []) ++ [printed]) <$>
          v.printStatement style depth := by
  unfold statementRows
  cases hblank : v.isBlankNode with
  | error e => exact .inl ⟨e, fun after => rfl⟩
  | ok blank =>
    rw [hblank] at h
    obtain rfl : blank = false := h
    exact .inr fun after => bind_pure_comp _ _

/-- Behind others a statement that is shown adds a separator, and what it adds as the first. -/
lemma statementRows_true (h : Fault.yes v.isBlankNode = false) :
    v.statementRows style depth true =
      (fun rows => Markup.separator v.isTextNode :: rows) <$>
        v.statementRows style depth false := by
  rcases statementRows_of_not_blank h with ⟨e, hrows⟩ | hrows
  · rw [hrows, hrows]
    rfl
  · rw [hrows, hrows, Functor.map_map]
    rfl

/-- A statement that is no blank text adds something. -/
lemma ensures_statementRows_ne_nil (h : Fault.yes v.isBlankNode = false) :
    (v.statementRows style depth after).Ensures (· ≠ []) := by
  rcases statementRows_of_not_blank h with ⟨e, hrows⟩ | hrows
  · rw [hrows]
    exact ensures_fail e
  · rw [hrows]
    exact (ensures_of_forall fun _ => trivial : Traced.Ensures (fun _ => True) _).map fun d _ =>
      by simp

/-! ## Statements one behind the other -/

/-- Blank texts are left out. -/
lemma printBody_shown (after : Bool) (vs : List Value) :
    printBody style depth after (shown vs) = printBody style depth after vs := by
  induction vs generalizing after with
  | nil => rfl
  | cons v vs ih =>
    cases hblank : Fault.yes v.isBlankNode with
    | true =>
      rw [shown_cons_of_blank hblank, printBody_cons, statementRows_of_blank hblank, ih]
      simp
    | false => simp only [shown_cons_of_not_blank hblank, printBody_cons, ih]

/-- Statements of two lists are printed one list behind the other. -/
lemma printBody_append (after : Bool) (xs ys : List Value) :
    printBody style depth after (xs ++ ys) = (do
      let rows ← printBody style depth after xs
      let others ← printBody style depth (after || !rows.isEmpty) ys
      return rows ++ others) := by
  induction xs generalizing after with
  | nil => simp [printBody]
  | cons x xs ih =>
    have hafter : ∀ first rows : List Document,
        (after || !(first ++ rows).isEmpty) = (after || !first.isEmpty || !rows.isEmpty) := by
      intro first rows
      cases first <;> simp
    simp only [List.cons_append, printBody_cons, ih, bind_assoc, pure_bind, hafter,
      List.append_assoc]

/-- Statements of which some are shown leave something in front of what follows. -/
lemma ensures_printBody_ne_nil (h : shown vs ≠ []) (after : Bool) :
    (printBody style depth after vs).Ensures (· ≠ []) := by
  obtain ⟨v, ws, hshown⟩ := List.exists_cons_of_ne_nil h
  have hv : Fault.yes v.isBlankNode = false := not_blank_of_mem_shown (hshown ▸ List.mem_cons_self)
  rw [← printBody_shown, hshown, printBody_cons]
  refine (ensures_statementRows_ne_nil hv).bind fun rows hrows => ensures_bind fun others => ?_
  exact ensures_pure (List.append_ne_nil_of_left_ne_nil hrows others)

/-- Behind others the first statement that is shown comes with a separator, and the statements
behind it as they do anyway. -/
lemma printBody_true (h : (shown vs).head? = some v) :
    printBody style depth true vs =
      (fun rows => Markup.separator v.isTextNode :: rows) <$> printBody style depth false vs := by
  obtain ⟨ws, hshown⟩ := List.head?_eq_some_iff.mp h
  have hv : Fault.yes v.isBlankNode = false := not_blank_of_mem_shown (hshown ▸ List.mem_cons_self)
  have hfirst : (v.statementRows style depth false).Ensures (· ≠ []) :=
    ensures_statementRows_ne_nil hv
  rw [← printBody_shown true, ← printBody_shown false, hshown, printBody_cons, printBody_cons,
    statementRows_true hv, map_bind, bind_map_left]
  refine hfirst.bind_congr fun rows hrows => ?_
  have hbehind : (false || !rows.isEmpty) = true := by simpa using hrows
  simp [hbehind]

/-! ## Documents of statements -/

/-- The document of statements of which others stand behind a separator. -/
lemma ofList_rows {rows others : List Document} {separator : Document}
    (hrows : ∀ d ∈ rows, d.IsSpliced) (hothers : ∀ d ∈ others, d.IsSpliced) :
    ofList (rows ++ separator :: others) = ofList [ofList rows, separator, ofList others] := by
  calc ofList (rows ++ separator :: others)
      = ofList (ofList rows :: separator :: others) :=
        (@Document.ofList_splice [] rows (separator :: others) hrows).symm
    _ = ofList [ofList rows, separator, ofList others] := by
        simpa using (@Document.ofList_splice [ofList rows, separator] others [] hothers).symm

/-- Two lists of statements of which some are shown are printed in a row as each of them, with a
separator in between. -/
lemma printStatements_of_shown (kind : Kind) (field : String) (hxs : shown xs ≠ [])
    (hys : (shown ys).head? = some v) :
    (Value.list (xs ++ ys)).printStatements style depth kind field = (do
      let before ← (Value.list xs).printStatements style depth kind field
      let behind ← (Value.list ys).printStatements style depth kind field
      return ofList [before, Markup.separator v.isTextNode, behind]) := by
  have hspliced : ∀ vs : List Value,
      (printBody style depth false vs).Ensures fun rows => ∀ d ∈ rows, d.IsSpliced :=
    fun vs => ensures_printBody (fun w _ => w.ensures_print depth) false
  have hrows : (printBody style depth false xs).Ensures fun rows =>
      rows ≠ [] ∧ ∀ d ∈ rows, d.IsSpliced :=
    fun rows h => ⟨ensures_printBody_ne_nil hxs false rows h, hspliced xs rows h⟩
  simp only [printStatements, printBody_append, map_bind, bind_map_left, map_pure]
  refine hrows.bind_congr fun rows hrows => ?_
  have hafter : (false || !rows.isEmpty) = true := by simpa using hrows.1
  rw [hafter, printBody_true hys, bind_map_left]
  refine (hspliced ys).bind_congr fun others hothers => ?_
  rw [ofList_rows hrows.2 hothers]

/-- The statements of two lists, some of each shown, are printed in a row as each list and between
them what the first one that is shown of the second list asks for: a break that may be left out
before text, and a newline before all else.  Blank texts can be left out before printing, and where
no others remain nothing is printed.  That is so whatever the statements hold, and well-typed ones
are printed without a fault. -/
theorem printStatements_append (style : QuoteStyle) (depth : Nat) (kind : Kind) (field : String) :
    (∀ xs ys : List Value, shown xs ≠ [] → ∀ y, (shown ys).head? = some y →
      (Value.list (xs ++ ys)).printStatements style depth kind field = (do
        let before ← (Value.list xs).printStatements style depth kind field
        let behind ← (Value.list ys).printStatements style depth kind field
        return ofList [before, if y.isTextNode then softline else .hardline, behind])) ∧
    (∀ vs : List Value, (Value.list vs).printStatements style depth kind field =
      (Value.list (shown vs)).printStatements style depth kind field) ∧
    (∀ vs : List Value, shown vs = [] →
      (Value.list vs).printStatements style depth kind field = pure .empty) ∧
    ∀ ns : List Node, (∀ n ∈ ns, n.WellTyped) → ∃ d,
      ((Value.list (ns.map .node)).printStatements style depth kind field).outcome = .ok d := by
  have hshown : ∀ vs : List Value, (Value.list vs).printStatements style depth kind field =
      (Value.list (shown vs)).printStatements style depth kind field :=
    fun vs => by rw [printStatements, printStatements, printBody_shown]
  refine ⟨fun xs ys hxs y hys => printStatements_of_shown kind field hxs hys, hshown,
    fun vs hvs => ?_, fun ns hns => ?_⟩
  · rw [hshown vs, hvs]
    rfl
  · exact ⟨_, Node.outcome_printStatements hns (fun n hn => Node.outcome_print (hns n hn))
      depth kind field⟩

/-- A block, and behind it blank text and an element. -/
theorem printStatements_append_of_element :
    (Value.list ([.node Node.sampleBlock] ++
        [.node (.text (.str " ")), .node Node.sampleElement])).printStatements .double 2 .program
        "body" = (do
      let before ← (Value.list [.node Node.sampleBlock]).printStatements .double 2 .program "body"
      let behind ← (Value.list [.node (.text (.str " ")),
        .node Node.sampleElement]).printStatements .double 2 .program "body"
      return ofList [before, .hardline, behind]) ∧
    (Value.list [.node (.text (.str " "))]).printStatements .double 2 .program "body" =
      pure .empty ∧
    ∃ d, ((Value.list ([Node.sampleBlock].map .node)).printStatements .double 2 .program
      "body").outcome = .ok d := by
  obtain ⟨happend, -, hblank, htotal⟩ := printStatements_append .double 2 .program "body"
  exact ⟨happend [.node Node.sampleBlock] [.node (.text (.str " ")), .node Node.sampleElement]
    (by decide) (.node Node.sampleElement) rfl, hblank [.node (.text (.str " "))] rfl,
    htotal [Node.sampleBlock] (by simpa using Node.wellTyped_sampleBlock)⟩

end Value

end GlimmerFormat
