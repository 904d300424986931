import GlimmerFormat.Proofs.Printing.Markup
import GlimmerFormat.Proofs.Tree.Blank
import GlimmerFormat.Proofs.Tree.Integers

/-!
# What printing writes

Printing a well-typed tree visits every number literal in it, at whatever depth.  What it leaves
out, blank text and clauses without items, holds no numbers.  So all rows of the record can happen
only if every integer in the tree can be written.

* `Logged.Passes`: all rows of a record can happen.
* `Node.showsIntegers`: if they can, the integers of a well-typed tree can be written.
-/

namespace GlimmerFormat

open Markup (QuoteStyle)

/-! ## Integers of well-typed trees -/

namespace Value

/-- The items of a list can be written if the list can. -/
lemma isWritable_list_map_node {ns : List Node} :
    (Value.list (ns.map .node)).IsWritable ↔ ∀ n ∈ ns, n.IsWritable := by
  rw [IsWritable, integers_list, List.flatMap_map, List.forall_mem_flatMap]
  rfl

/-- A text can be written. -/
@[simp] lemma isWritable_str (s : String) : (Value.str s).IsWritable :=
  List.forall_mem_nil _

/-- Texts in a list can be written. -/
@[simp] lemma isWritable_list_map_str (ss : List String) :
    (Value.list (ss.map .str)).IsWritable := by
  rw [IsWritable, integers_list, List.flatMap_map]
  simp [integers]

/-- A truth value can be written. -/
@[simp] lemma isWritable_bool (b : Bool) : (Value.bool b).IsWritable :=
  List.forall_mem_nil _

end Value

/-- A node can be written if its fields can. -/
lemma Node.isWritable_iff_fields {n : Node} :
    n.IsWritable ↔ ∀ f ∈ n.fields, f.2.IsWritable := by
  rw [IsWritable, integers_eq_flatMap, List.forall_mem_flatMap]
  rfl

/-! ## Records that can happen -/

namespace Logged

variable {α β : Type} {x : Logged α} {f : α → Logged β}

/-- All rows of a record can happen. -/
def Passes (x : Logged α) : Prop :=
  ∀ row ∈ x.log, row.check = .ok ()

/-- The record of a computation starts with that of its first part. -/
lemma Passes.first (h : (x >>= f).Passes) : x.Passes := by
  obtain ⟨log, outcome⟩ := x
  cases outcome with
  | error e => exact h
  | ok a => exact fun row hrow => h row (List.mem_append_left _ hrow)

/-- Behind a part that succeeds stands the record of the next one. -/
lemma Passes.second (h : (x >>= f).Passes) {a : α} (hx : x.outcome = .ok a) : (f a).Passes := by
  obtain ⟨log, outcome⟩ := x
  obtain rfl : outcome = .ok a := hx
  exact fun row hrow => h row (List.mem_append_right _ hrow)

/-- Changing a result leaves no row. -/
lemma Passes.of_map {f : α → β} (h : (f <$> x).Passes) : x.Passes := by
  rw [← bind_pure_comp] at h
  exact h.first

/-- The record of what is printed, where there is something to print. -/
lemma Passes.of_ifAny {count : Except Fault Nat} {printed : Logged Document} {k : Nat}
    (h : (ifAny count printed).Passes) (hcount : count = .ok (k + 1)) : printed.Passes := by
  subst hcount
  exact h.second (Traced.outcome_ofExcept _)

end Logged

open Logged (Passes)

namespace Node

variable {style : QuoteStyle} {n : Node} {ns : List Node} {depth : Nat}

/-- A well-typed node is printed as its markup, where a value is printed. -/
lemma WellTyped.outcome_value (hn : n.WellTyped) (style : QuoteStyle) (depth : Nat) :
    ((Value.node n).print style depth).outcome = .ok (n.markup style) :=
  (outcome_print hn).outcome_value depth

/-- If all that printing a node leaves on record can happen, its integers can be written. -/
def ShowsIntegers (style : QuoteStyle) (n : Node) : Prop :=
  ∀ depth, ((Value.node n).print style depth).Passes → n.IsWritable

/-! ## Lists of nodes -/

/-- Nodes in a list are printed one after the other. -/
lemma isWritable_of_printAll (hwell : ∀ n ∈ ns, n.WellTyped)
    (h : ∀ n ∈ ns, n.ShowsIntegers style)
    (hpasses : (Value.printAll style depth (ns.map .node)).Passes) :
    (Value.list (ns.map .node)).IsWritable := by
  rw [Value.isWritable_list_map_node]
  induction ns with
  | nil => exact List.forall_mem_nil _
  | cons n ns ih =>
    obtain ⟨hn, hothers⟩ := List.forall_mem_cons.mp hwell
    rw [List.map_cons, Value.printAll] at hpasses
    have hbehind := (hpasses.second (hn.outcome_value style depth)).first
    exact List.forall_mem_cons.mpr ⟨h n (by simp) depth hpasses.first,
      ih hothers (fun m hm => h m (by simp [hm])) hbehind⟩

/-- Nodes in a list are printed where there are some. -/
lemma isWritable_of_ifAny_printItems (hwell : ∀ n ∈ ns, n.WellTyped)
    (h : ∀ n ∈ ns, n.ShowsIntegers style) {kind : Kind} {field : String}
    {markup : List Document → Document}
    (hpasses : (Logged.ifAny (Value.list (ns.map .node)).count do
      return markup ((← (Value.list (ns.map .node)).printItems style depth kind field).map
        Part.document)).Passes) :
    (Value.list (ns.map .node)).IsWritable := by
  cases ns with
  | nil => exact List.forall_mem_nil _
  | cons n ns => exact isWritable_of_printAll hwell h (hpasses.of_ifAny rfl).first

/-- Statements are printed one after the other; what is left out is a text. -/
lemma isWritable_of_printBody (hwell : ∀ n ∈ ns, n.WellTyped)
    (h : ∀ n ∈ ns, n.ShowsIntegers style) {after : Bool}
    (hpasses : (Value.printBody style depth after (ns.map .node)).Passes) :
    (Value.list (ns.map .node)).IsWritable := by
  rw [Value.isWritable_list_map_node]
  induction ns generalizing after with
  | nil => exact List.forall_mem_nil _
  | cons n ns ih =>
    obtain ⟨hn, hothers⟩ := List.forall_mem_cons.mp hwell
    have ih : ∀ {after : Bool}, (Value.printBody style depth after (ns.map .node)).Passes →
        ∀ m ∈ ns, m.IsWritable := ih hothers fun m hm => h m (by simp [hm])
    rw [List.map_cons, Value.printBody, Value.isBlankNode_node hn] at hpasses
    have hpasses := hpasses.second (Traced.outcome_ofExcept _)
    have hprinted := hn.outcome_value style depth
    -- A text holds no integers, whether it is left out or not.
    cases hn with
    | text chars =>
      refine List.forall_mem_cons.mpr ⟨List.forall_mem_nil _, ?_⟩
      cases hblank : (Node.text (.str chars)).isBlankText with
      | true =>
        rw [hblank] at hpasses
        exact ih hpasses
      | false =>
        rw [hblank] at hpasses
        exact ih (hpasses.second (Traced.outcome_pure _)).first
    | _ =>
      have hmapped := Traced.outcome_map_of_ok (f := Part.document) hprinted
      exact List.forall_mem_cons.mpr ⟨h _ (by simp) depth hpasses.first.of_map,
        ih (hpasses.second hmapped).first⟩

/-! ## Calls, blocks and elements -/

/-- The nodes of a call are printed where there are some. -/
lemma isWritable_of_callDocument {callee named : Node} {params : List Node} {kind : Kind}
    (hkinds : CallKinds callee params named) (hcalleeWell : callee.WellTyped)
    (hparamsWell : ∀ p ∈ params, p.WellTyped) (hnamedWell : named.WellTyped)
    (hcallee : callee.ShowsIntegers style) (hparams : ∀ p ∈ params, p.ShowsIntegers style)
    (hnamed : named.ShowsIntegers style)
    (hpasses : (GlimmerFormat.callDocument ((Value.node callee).print style (depth + 1))
      (.list (params.map .node))
      ((Value.list (params.map .node)).printItems style (depth + 2) kind "params")
      (.node named) ((Value.node named).print style (depth + 1))).Passes) :
    callee.IsWritable ∧ (Value.list (params.map .node)).IsWritable ∧ named.IsWritable := by
  have hprints : ∀ p ∈ params, p.PrintsMarkup style := fun p hp => outcome_print (hparamsWell p hp)
  have hpositional := outcome_ifAny_printItems Markup.positional hprints (depth + 2) kind "params"
  have hbehind := hpasses.second (hcalleeWell.outcome_value style (depth + 1))
  refine ⟨hcallee _ hpasses.first,
    isWritable_of_ifAny_printItems hparamsWell hparams hbehind.first, ?_⟩
  have hbyName := (hbehind.second hpositional).first
  obtain ⟨pairs, rfl⟩ := hnamedWell.exists_hash hkinds.named
  cases pairs with
  | nil => exact List.forall_mem_nil _
  | cons pair pairs => exact hnamed _ (hbyName.of_ifAny rfl).first

/-- The body of a program is printed where it has statements, and its names are texts. -/
lemma isWritable_of_blockBody {content : Node} (hwell : content.WellTyped)
    (hkind : content.kind = .program) (h : content.ShowsIntegers style)
    (hpasses : (Logged.ifAny (Value.node content).bodyCount do
      return Markup.blockBody (← (Value.node content).print style depth)).Passes) :
    content.IsWritable := by
  obtain ⟨body, names, rfl⟩ := hwell.exists_program hkind
  cases body with
  | nil =>
    rw [isWritable_iff_fields]
    simp only [fields, List.forall_mem_cons]
    exact ⟨List.forall_mem_nil _, Value.isWritable_list_map_str names, List.forall_mem_nil _⟩
  | cons n ns => exact h _ (hpasses.of_ifAny rfl).first

/-- The nodes of a block are printed, the programs where they have statements. -/
lemma isWritable_of_blockDocument {callee content : Node} {inverse : Option Node}
    {call : Logged Document} {callDoc : Document} (hcall : call.outcome = .ok callDoc)
    (hcontentWell : content.WellTyped) (hcontentKind : content.kind = .program)
    (hcontent : content.ShowsIntegers style) (hinverseWell : ∀ n ∈ inverse, n.WellTyped)
    (hinverseKind : ∀ n ∈ inverse, n.kind = .program)
    (hinverse : ∀ n ∈ inverse, n.ShowsIntegers style)
    (hpasses : (blockDocument ((Value.node callee).print style depth) call (.node content)
      (inverse.elim .null .node) ((Value.node content).print style depth)
      ((inverse.elim Value.null .node).print style depth)).Passes) :
    call.Passes ∧ content.IsWritable ∧ (inverse.elim Value.null .node).IsWritable := by
  have hprints : content.PrintsMarkup style := outcome_print hcontentWell
  have hbody := outcome_blockBody hcontentWell hcontentKind hprints depth
  have hwritten : (Logged.ifAny (Value.node content).bodyCount do
      return Markup.blockBody (← (Value.node content).print style depth)).Passes →
        content.IsWritable := isWritable_of_blockBody hcontentWell hcontentKind hcontent
  obtain ⟨statements, names, rfl⟩ := hcontentWell.exists_program hcontentKind
  have hnames := outcome_blockParams (.list (statements.map .node)) names
  have hbehind := hpasses.second (Traced.outcome_ofExcept _)
  have hclause := (hbehind.second hcall).second hnames
  refine ⟨hbehind.first, hwritten hclause.first, ?_⟩
  have hotherwise := hclause.second hbody
  cases inverse with
  | none => exact List.forall_mem_nil _
  | some n =>
    exact isWritable_of_blockBody (hinverseWell n rfl) (hinverseKind n rfl) (hinverse n rfl)
      hotherwise.first.of_map

/-- The nodes of an element are printed; children that are left out are texts. -/
lemma isWritable_of_elementDocument (tag : String) {attributes modifiers children : List Node}
    (hattributesWell : ∀ n ∈ attributes, n.WellTyped)
    (hmodifiersWell : ∀ n ∈ modifiers, n.WellTyped) (hchildrenWell : ∀ n ∈ children, n.WellTyped)
    (hattributes : ∀ n ∈ attributes, n.ShowsIntegers style)
    (hmodifiers : ∀ n ∈ modifiers, n.ShowsIntegers style)
    (hchildren : ∀ n ∈ children, n.ShowsIntegers style)
    (hpasses : (elementDocument (.str tag) (.list (attributes.map .node))
      ((Value.list (attributes.map .node)).printItems style depth .element "attributes")
      (.list (modifiers.map .node))
      ((Value.list (modifiers.map .node)).printItems style depth .element "modifiers")
      (.list (children.map .node))
      ((Value.list (children.map .node)).printStatements style depth .element
        "children")).Passes) :
    (Value.list (attributes.map .node)).IsWritable ∧
      (Value.list (modifiers.map .node)).IsWritable ∧
      (Value.list (children.map .node)).IsWritable := by
  have hattributesPrint : ∀ n ∈ attributes, n.PrintsMarkup style := fun n hn =>
    outcome_print (hattributesWell n hn)
  have hmodifiersPrint : ∀ n ∈ modifiers, n.PrintsMarkup style := fun n hn =>
    outcome_print (hmodifiersWell n hn)
  have hattributesDoc :=
    outcome_ifAny_printItems Markup.attributes hattributesPrint depth .element "attributes"
  have hmodifiersDoc := outcome_ifAny_printItems
    (Markup.modifiers (Value.list (attributes.map .node)).isTruthy) hmodifiersPrint depth .element
    "modifiers"
  have hselfCloses := selfCloses_str tag (children.map .node)
  have hname : (Value.str tag).text .length = .ok tag := rfl
  have hshown : (Value.list (children.map .node)).hasContent =
      .ok !(shown children).isEmpty := Value.anyPresent_map_node hchildrenWell
  have hfirst := hpasses.second ((Traced.outcome_ofExcept _).trans hselfCloses)
  have hsecond := hfirst.second hattributesDoc
  have hthird := (hsecond.second hmodifiersDoc).second
    ((Traced.outcome_ofExcept _).trans hname)
  have hbehind := hthird.second ((Traced.outcome_ofExcept _).trans hshown)
  refine ⟨isWritable_of_ifAny_printItems hattributesWell hattributes hfirst.first,
    isWritable_of_ifAny_printItems hmodifiersWell hmodifiers hsecond.first, ?_⟩
  cases hnone : (shown children).isEmpty with
  | true =>
    -- All children are blank text.
    rw [Value.isWritable_list_map_node]
    intro n hn
    cases hblank : n.isBlankText with
    | true =>
      cases hchildrenWell n hn with
      | text chars => exact List.forall_mem_nil _
      | _ => cases hblank
    | false =>
      have hsome : shown children ≠ [] := shown_ne_nil_iff.mpr ⟨n, hn, hblank⟩
      exact absurd (List.isEmpty_iff.mp hnone) hsome
  | false =>
    rw [hnone] at hbehind
    exact isWritable_of_printBody hchildrenWell hchildren hbehind.first.of_map.of_map

/-! ## Every kind of node -/

/-- A node is visited and then printed, so its integers are shown if printing it shows those of
each field. -/
lemma showsIntegers_of_fields
    (h : ∀ depth, (n.print style depth).Passes → ∀ f ∈ n.fields, f.2.IsWritable) :
    n.ShowsIntegers style := by
  intro depth hpasses
  have hprint : (n.print style depth).Passes := hpasses.second (Traced.outcome_note _)
  exact isWritable_iff_fields.mpr (h depth hprint)

/-- Printing a well-typed node leaves on record all that holds integers. -/
theorem showsIntegers {n : Node} (hn : n.WellTyped) : n.ShowsIntegers style := by
  induction hn with
  | path | string | boolean | null | text | comment =>
    intro depth _
    simp [isWritable_iff_fields, fields]
  | number h =>
    -- The visit itself shows the integer.
    intro depth hpasses
    have hvisited : Value.written _ = .ok () :=
      hpasses (.visiting depth (.node (.number _))) List.mem_cons_self
    by_contra hnot
    rw [Value.written_eq_error.mpr ⟨hnot, rfl⟩] at hvisited
    cases hvisited
  | pair key hkind hvalue ih | attr name hkind hvalue ih =>
    refine showsIntegers_of_fields fun depth hpasses => ?_
    have hvalue := ih _ hpasses.first
    simp only [fields, List.forall_mem_cons]
    exact ⟨Value.isWritable_str _, hvalue, List.forall_mem_nil _⟩
  | hash hkinds hitems ih | concat hkinds hitems ih =>
    refine showsIntegers_of_fields fun depth hpasses => ?_
    have hlist := isWritable_of_printAll hitems ih hpasses.first
    exact List.forall_mem_singleton.mpr hlist
  | subexpression hkinds hcallee hparams hnamed ihc ihp ihn
  | modifier hkinds hcallee hparams hnamed ihc ihp ihn =>
    refine showsIntegers_of_fields fun depth hpasses => ?_
    obtain ⟨hc, hp, hn⟩ :=
      isWritable_of_callDocument hkinds hcallee hparams hnamed ihc ihp ihn hpasses.first
    simp only [fields, List.forall_mem_cons]
    exact ⟨hc, hp, hn, List.forall_mem_nil _⟩
  | mustache hkinds hcallee hparams hnamed escaped ihc ihp ihn =>
    refine showsIntegers_of_fields fun depth hpasses => ?_
    obtain ⟨hc, hp, hn⟩ :=
      isWritable_of_callDocument hkinds hcallee hparams hnamed ihc ihp ihn hpasses.first
    simp only [fields, List.forall_mem_cons]
    exact ⟨hc, hp, hn, Value.isWritable_bool escaped, List.forall_mem_nil _⟩
  | program hkinds hbody blockParams ih =>
    refine showsIntegers_of_fields fun depth hpasses => ?_
    have hlist := isWritable_of_printBody hbody ih hpasses.first.of_map
    simp only [fields, List.forall_mem_cons]
    exact ⟨hlist, Value.isWritable_list_map_str blockParams, List.forall_mem_nil _⟩
  | block hkinds hcallee hparams hnamed hcontentKind hcontent hinverseKind hinverse ihc ihp ihn
      ihcontent ihinverse =>
    refine showsIntegers_of_fields fun depth hpasses => ?_
    have hcalleePrints : PrintsMarkup style _ := outcome_print hcallee
    have hcall := outcome_callDocument depth .block hkinds hnamed hcalleePrints
      (fun p hp => outcome_print (hparams p hp)) (outcome_print hnamed)
    obtain ⟨hcallPasses, hcontentWritten, hinverseWritten⟩ := isWritable_of_blockDocument hcall
      hcontent hcontentKind ihcontent hinverse hinverseKind ihinverse hpasses.first
    obtain ⟨hc, hp, hn⟩ :=
      isWritable_of_callDocument hkinds hcallee hparams hnamed ihc ihp ihn hcallPasses
    simp only [fields, List.forall_mem_cons]
    exact ⟨hc, hp, hn, hcontentWritten, hinverseWritten, List.forall_mem_nil _⟩
  | element tag hattributeKinds hattributes hmodifierKinds hmodifiers hchildKinds hchildren
      blockParams iha ihm ihc =>
    refine showsIntegers_of_fields fun depth hpasses => ?_
    obtain ⟨ha, hm, hc⟩ := isWritable_of_elementDocument tag hattributes hmodifiers hchildren iha
      ihm ihc hpasses.first
    simp only [fields, List.forall_mem_cons]
    exact ⟨Value.isWritable_str tag, ha, hm, hc, Value.isWritable_list_map_str blockParams,
      List.forall_mem_nil _⟩

end Node

end GlimmerFormat
