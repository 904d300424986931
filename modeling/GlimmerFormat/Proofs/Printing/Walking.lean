import GlimmerFormat.Printing.Node
import GlimmerFormat.Proofs.Tree.Occurs
import GlimmerFormat.Proofs.Walk.Logged

/-!
# Printing on a walk

The rules of printing can be read as instructions for a walk: the rule of a node asks for the
fields of the node by their names, goes down to each of them and has printed what stands there,
and steps back.  A name that the node does not have would be a missing field.

`Position.printHere` is a rule read in this way, with what is printed further down left open.
Printing is what these rules say: there is one way to print at every position that follows them, and
it prints the value at the position, at its depth (`Position.forall_printHere_iff`).  So every field
that a rule asks for is one that its node has.
-/

namespace GlimmerFormat

open Markup (QuoteStyle)

/-! ## Rules as instructions -/

/-- What a statement at a position is printed as.  Text is reflowed. -/
def Position.printStatement (print : Position → Logged Part) (p : Position) : Logged Document :=
  match p.value with
  | .node (.text (.str s)) => pure (.paragraph s)
  | _ => Part.document <$> print p

/-- Puts a separator on record, if there is something on record to separate from. -/
def Walk.recordSeparator (v : Value) : Walk Document Unit := do
  unless (← get).trace.isEmpty do
    record (Markup.separator v.isTextNode)

/-- Visits a statement.  Blank text is passed over; anything else goes on record, behind a
separator. -/
def Walk.visitStatement (print : Position → Logged Part) : Walk Document Unit := do
  let v := (← here).value
  let blank ← ofLogged fun _ => Traced.ofExcept v.isBlankNode
  if blank then
    return
  else
    recordSeparator v
    record (← ofLogged (Position.printStatement print))

namespace Position

variable (style : QuoteStyle) (print : Position → Logged Part) (p : Position)

/-- Goes down to a field and prints there. -/
def printField (name : String) : Logged Part :=
  (Walk.atField name (Walk.ofLogged print)).logged p

/-- Goes down to each item of a list field and prints there. -/
def printItems (name : String) : Logged (List Part) :=
  (Walk.atItems name (Walk.ofLogged print)).logged p

/-- Goes through the statements in a list field. -/
def printStatements (name : String) : Logged Document :=
  Document.ofList <$> (Walk.throughItems name (Walk.visitStatement print)).recorded p

/-- Prints a call with these parameters, which the current node holds. -/
def printCall (params named : Value) : Logged Document :=
  callDocument (p.printField print "path") params (p.printItems print "params")
    named (p.printField print "hash")

/-- Prints a node that stands at the position. -/
def printNode : Node → Logged Part
  | .path _ parts => Part.str <$> Traced.ofExcept parts.dotted
  | .string value => Traced.ofExcept (value.quotedLiteral style.mark)
  | .number value => pure (.str value.numberText)
  | .boolean value => pure (.str (if value.isTruthy then "true" else "false"))
  | .null => pure (.str "null")
  | .pair key _ => do
    let printed ← p.printField print "value"
    return .doc (Markup.pair key.document printed)
  | .hash _ => do
    let printed ← p.printItems print "pairs"
    return .doc (Markup.pairs (printed.map Part.document))
  | .subexpression _ params named => do
    let call ← p.printCall print params named
    return .doc (Markup.subexpression call)
  | .text chars => pure chars.part
  | .mustache _ params named escaped => do
    let call ← p.printCall print params named
    return .doc (Markup.mustache escaped.isTruthy call)
  | .comment value => do
    let text ← Traced.ofExcept (value.text .words)
    return .doc (Markup.comment text)
  | .modifier _ params named => do
    let call ← p.printCall print params named
    return .doc (Markup.modifier call)
  | .concat _ => do
    let printed ← p.printItems print "parts"
    return .doc (Markup.concat (printed.map Part.document))
  | .attr name value => do
    let printed ← p.printField print "value"
    return .doc (Markup.attr name.document value.isTextNode printed)
  | .program _ _ => do
    let printed ← p.printStatements print "body"
    return .doc printed
  | .block _ params named content inverse => do
    let printed ← blockDocument (p.printField print "path") (p.printCall print params named)
      content inverse (p.printField print "program") (p.printField print "inverse")
    return .doc printed
  | .element tag attributes modifiers children _ => do
    let printed ← elementDocument tag
      attributes (p.printItems print "attributes")
      modifiers (p.printItems print "modifiers")
      children (p.printStatements print "children")
    return .doc printed

/-- Prints the value at the position.  What is printed at the positions further down is left to
`print`. -/
def printHere : Logged Part :=
  match p.value with
  | .null => pure (.doc .empty)
  | .node n => do
    Traced.note (.visiting p.depth (.node n))
    p.printNode style print n
  | v => do
    Traced.note (.visiting p.depth v)
    Traced.note .unsupported
    Traced.fail (.unsupportedKind v.typeName)

end Position

/-! ## What the instructions come to -/

/-- Wherever a value stands, it is printed as by itself, at its depth. -/
def Value.PrintedBy (style : QuoteStyle) (print : Position → Logged Part) (v : Value) : Prop :=
  ∀ p : Position, p.value = v → print p = v.print style p.depth

namespace Value

/-- Values are printed in order, up to the first failure. -/
lemma printAll_eq_mapM (style : QuoteStyle) (depth : Nat) (vs : List Value) :
    printAll style depth vs = vs.mapM (print style depth) := by
  induction vs with
  | nil => rw [printAll, List.mapM_nil]
  | cons v vs ih => rw [printAll, List.mapM_cons, ih]

/-- What a statement is printed as.  Text is reflowed. -/
def printStatement (style : QuoteStyle) (depth : Nat) (v : Value) : Logged Document :=
  match v with
  | .node (.text (.str s)) => pure (.paragraph s)
  | _ => Part.document <$> v.print style depth

/-- What a statement adds to those before it. -/
def statementRows (style : QuoteStyle) (depth : Nat) (after : Bool) (v : Value) :
    Logged (List Document) := do
  if ← Traced.ofExcept v.isBlankNode then
    return []
  else
    let printed ← v.printStatement style depth
    return (if after then [Markup.separator v.isTextNode] else []) ++ [printed]

/-- Statements are printed one after the other. -/
lemma printBody_cons (style : QuoteStyle) (depth : Nat) (after : Bool) (v : Value)
    (vs : List Value) :
    printBody style depth after (v :: vs) = (do
      let rows ← v.statementRows style depth after
      let others ← printBody style depth (after || !rows.isEmpty) vs
      return rows ++ others) := by
  rw [printBody, statementRows]
  simp only [bind_assoc]
  congr 1
  funext blank
  cases blank with
  | true => simp
  | false =>
    have hafter : ∀ (rows : List Document) (d : Document),
        (after || !(rows ++ [d]).isEmpty) = true := by simp
    simp only [Bool.false_eq_true, if_false, bind_assoc, pure_bind]
    unfold printStatement
    split
    · simp [hafter]
    · simp [hafter]

end Value

namespace Position

variable {style : QuoteStyle} {print : Position → Logged Part} {p : Position}

/-- A statement is printed as by itself. -/
lemma printStatement_eq (h : p.value.PrintedBy style print) :
    p.printStatement print = p.value.printStatement style p.depth := by
  unfold printStatement Value.printStatement
  rw [h p rfl]

end Position

namespace Walk

variable {style : QuoteStyle} {print : Position → Logged Part}

/-- A separator goes on record exactly if something is on record already. -/
lemma records_recordSeparator (v : Value) (t : Tour Document) :
    (recordSeparator v).Records t
      (pure (if !t.trace.isEmpty then [Markup.separator v.isTextNode] else [])) := by
  refine records_of_run_eq_ok (a := ()) ?_
  obtain ⟨p, log, trace⟩ := t
  cases trace with
  | nil => rfl
  | cons d ds => rfl

/-- A statement that is printed goes on record. -/
lemma records_printStatement {t : Tour Document} (h : t.position.value.PrintedBy style print) :
    (ofLogged (Position.printStatement print) >>= record).Records t (do
      let printed ← t.position.value.printStatement style t.position.depth
      return [printed]) := by
  rw [← Position.printStatement_eq h]
  exact records_ofLogged_bind records_record

/-- A visit to a statement puts on record what the statement adds to those before it. -/
lemma records_visitStatement {t : Tour Document} (h : t.position.value.PrintedBy style print) :
    (visitStatement print).Records t
      (t.position.value.statementRows style t.position.depth (!t.trace.isEmpty)) := by
  refine records_here_bind ?_
  refine records_ofLogged_bind (f := fun _ => Traced.ofExcept t.position.value.isBlankNode) ?_
  intro blank
  cases blank with
  | true => exact records_pure ()
  | false =>
    have hrows := (records_recordSeparator t.position.value _).bind fun _ _ =>
      records_printStatement (t := ⟨t.position, _, _⟩) h
    simpa using hrows

/-- Visits to statements put them on record one after the other. -/
lemma records_visitItems {vs : List Value} (h : ∀ v ∈ vs, v.PrintedBy style print) (index : Nat)
    (t : Tour Document) :
    (visitItems (visitStatement print) index vs).Records t
      (Value.printBody style (t.position.depth + 1) (!t.trace.isEmpty) vs) := by
  induction vs generalizing index t with
  | nil =>
    rw [Value.printBody]
    exact records_pure []
  | cons v vs ih =>
    have hfirst : (descend (.item index) v (visitStatement print)).Records t
        (v.statementRows style (t.position.depth + 1) (!t.trace.isEmpty)) :=
      (records_visitStatement (t := { t with position := t.position.push (.item index) v })
        (h v (by simp))).descend
    rw [Value.printBody_cons]
    refine hfirst.bind fun first rows => ?_
    have hafter : (!t.trace.isEmpty || !rows.isEmpty) = !(t.trace ++ rows).isEmpty := by
      cases t.trace with
      | nil => rfl
      | cons => rfl
    rw [hafter]
    exact (ih (fun w hw => h w (by simp [hw])) (index + 1) _).map

end Walk

namespace Position

variable {style : QuoteStyle} {print : Position → Logged Part} {p : Position} {n : Node}
  {name : String} {v : Value}

/-! ## Fields -/

/-- Printing at a field prints its value one level deeper. -/
lemma printField_eq (hn : p.value = .node n) (hv : n.field? name = some v)
    (h : v.PrintedBy style print) : p.printField print name = v.print style (p.depth + 1) := by
  have hfield : p.value.field? name = some v := by rw [hn]; exact hv
  rw [printField, Walk.logged_atField hfield]
  exact h _ rfl

/-- Printing at the items of a list field prints them two levels deeper. -/
lemma printItems_eq (hn : p.value = .node n) (hv : n.field? name = some v)
    (h : ∀ items, v = .list items → ∀ w ∈ items, w.PrintedBy style print) :
    p.printItems print name = v.printItems style (p.depth + 2) n.kind name := by
  have hfield : p.value.field? name = some v := by rw [hn]; exact hv
  cases v with
  | list items =>
    rw [printItems, Value.printItems, Value.printAll_eq_mapM]
    exact Walk.logged_atItems hfield fun w hw q i => h items rfl w hw _ rfl
  | _ =>
    rw [printItems, Walk.logged, Walk.run_atItems_of_not_list hfield rfl, hn]
    rfl

/-- Printing at the statements of a list field prints them two levels deeper. -/
lemma printStatements_eq (hn : p.value = .node n) (hv : n.field? name = some v)
    (h : ∀ items, v = .list items → ∀ w ∈ items, w.PrintedBy style print) :
    p.printStatements print name = v.printStatements style (p.depth + 2) n.kind name := by
  have hfield : p.value.field? name = some v := by rw [hn]; exact hv
  cases v with
  | list items =>
    have hrecords : (Walk.throughItems name (Walk.visitStatement print)).Records ⟨p, [], []⟩
        (Value.printBody style (p.depth + 2) false items) :=
      Walk.records_throughItems hfield (Walk.records_visitItems (h items rfl) 0 _)
    rw [printStatements, Value.printStatements, hrecords.recorded_eq]
  | _ =>
    rw [printStatements, Walk.recorded, Walk.throughItems,
      Walk.run_bind_of_error (Walk.run_atItems_of_not_list hfield rfl), hn]
    rfl

/-- The instructions for a node come to what the node is printed as. -/
lemma printNode_eq (hn : p.value = .node n) (h : ∀ w, n.Holds w → w.PrintedBy style print) :
    p.printNode style print n = n.print style p.depth := by
  have hfield (name : String) {w : Value} (hw : n.field? name = some w) :
      p.printField print name = w.print style (p.depth + 1) :=
    printField_eq hn hw (h w (.field hw))
  have hitems (name : String) {w : Value} (hw : n.field? name = some w) :
      p.printItems print name = w.printItems style (p.depth + 2) n.kind name :=
    printItems_eq hn hw fun items hlist v hv => h v (.item (hlist ▸ hw) hv)
  have hstatements (name : String) {w : Value} (hw : n.field? name = some w) :
      p.printStatements print name = w.printStatements style (p.depth + 2) n.kind name :=
    printStatements_eq hn hw fun items hlist v hv => h v (.item (hlist ▸ hw) hv)
  cases n with
  | path | string | number | boolean | null | text | comment => rw [printNode, Node.print]
  | pair | attr => rw [printNode, Node.print, hfield "value" rfl]
  | hash => rw [printNode, Node.print, hitems "pairs" rfl]; rfl
  | concat => rw [printNode, Node.print, hitems "parts" rfl]; rfl
  | program => rw [printNode, Node.print, hstatements "body" rfl]; rfl
  | subexpression | mustache | modifier =>
    rw [printNode, Node.print, printCall, hfield "path" rfl, hitems "params" rfl,
      hfield "hash" rfl]
    rfl
  | block =>
    rw [printNode, Node.print, printCall, hfield "path" rfl, hitems "params" rfl,
      hfield "hash" rfl, hfield "program" rfl, hfield "inverse" rfl]
    rfl
  | element =>
    rw [printNode, Node.print, hitems "attributes" rfl, hitems "modifiers" rfl,
      hstatements "children" rfl]
    rfl

/-- The instructions come to what the value at the position is printed as. -/
lemma printHere_eq (h : ∀ n, p.value = .node n → ∀ w, n.Holds w → w.PrintedBy style print) :
    p.printHere style print = p.value.print style p.depth := by
  rw [printHere]
  cases hv : p.value with
  | node n => rw [Value.print, ← printNode_eq hv (h n hv)]
  | _ => rfl

/-- Whatever follows the rules prints each value as it is printed by itself. -/
lemma printedBy_of_printHere (h : ∀ p : Position, print p = p.printHere style print) (v : Value) :
    v.PrintedBy style print := by
  -- What is no node is printed without going further down.
  have hother : ∀ w : Value, (∀ n, w ≠ .node n) → w.PrintedBy style print := by
    intro w hw p hp
    rw [h p, printHere_eq fun n hn => absurd (hp.symm.trans hn) (hw n), hp]
  have hnode : ∀ n : Node, (Value.node n).PrintedBy style print := by
    intro n
    induction n using Node.inductionOnChildren with
    | step n ih =>
      have hheld : ∀ w, n.Holds w → w.PrintedBy style print := by
        intro w hw
        cases w with
        | node m => exact ih m hw.mem_children
        | _ => exact hother _ nofun
      intro p hp
      rw [h p, printHere_eq, hp]
      intro m hm
      obtain rfl : n = m := Value.node.inj (hp.symm.trans hm)
      exact hheld
  cases v with
  | node n => exact hnode n
  | _ => exact hother _ nofun

/-- There is one way to print that follows the rules at every position: it prints the value at the
position, at its depth. -/
theorem forall_printHere_iff :
    (∀ p : Position, print p = p.printHere style print) ↔
      ∀ p : Position, print p = p.value.print style p.depth := by
  constructor
  · intro h p
    exact printedBy_of_printHere h p.value p rfl
  · intro h p
    have hall : ∀ v : Value, v.PrintedBy style print := by
      rintro v p rfl
      exact h p
    rw [h, printHere_eq fun n _ v _ => hall v]

end Position

end GlimmerFormat
