import GlimmerFormat.Proofs.Printing.Strays
import GlimmerFormat.Proofs.Printing.Walking
import GlimmerFormat.Proofs.Traced

/-!
# Faults of printing

Whatever a tree holds, printing it fails only for a cause that stands in the tree.  What is read out
of a field may be of the wrong type or lack a part.  A field that is gone through may hold no list,
and a value where a node belongs may be no node.  A value that is visited may hold an integer that
cannot be written.  Nothing else can stop printing, and nothing else is a stray in what is printed.

* `Fault.OnlyReading`: the readings fail in these ways alone.
* `Logged.Meets`: what a computation meets in its rows, when it fails and in what it comes to.
* `Fault.IsMetIn`: what printing a tree can meet.
* `Node.meets_print`: printing meets nothing else.
-/

namespace GlimmerFormat

open Markup (QuoteStyle)
open Traced (ends_pure ends_fail ends_note)

/-! ## Readings -/

namespace Fault

/-- A value that is read is of the wrong type or lacks a part. -/
def IsReading : Fault → Prop
  | .illTyped _ _ | .lacksPart _ _ => True
  | _ => False

/-- If a reading fails, a value is of the wrong type or lacks a part. -/
def OnlyReading {α : Type} (x : Except Fault α) : Prop :=
  ∀ e, x = .error e → e.IsReading

variable {α β : Type}

/-- What is read without asking fails in no way. -/
lemma onlyReading_ok (a : α) : OnlyReading (.ok a) :=
  nofun

/-- A value of the wrong type. -/
lemma onlyReading_illTyped (need : Need) (found : String) :
    OnlyReading (.error (.illTyped need found) : Except Fault α) := by
  intro e he
  cases he
  trivial

/-- A value without a part. -/
lemma onlyReading_lacksPart (part found : String) :
    OnlyReading (.error (.lacksPart part found) : Except Fault α) := by
  intro e he
  cases he
  trivial

/-- A reading that goes on with another. -/
lemma OnlyReading.bind {x : Except Fault α} {f : α → Except Fault β} (hx : OnlyReading x)
    (hf : ∀ a, OnlyReading (f a)) : OnlyReading (x >>= f) := by
  cases x with
  | error e => exact fun d hd => hx d (by simpa [Bind.bind, Except.bind] using hd)
  | ok a => exact hf a

end Fault

namespace Value

open Fault (OnlyReading onlyReading_ok onlyReading_illTyped onlyReading_lacksPart)

variable (v : Value)

/-- Counting fails, if at all, as a reading. -/
lemma onlyReading_count : OnlyReading v.count := by
  unfold count
  split
  · exact onlyReading_ok _
  · exact onlyReading_illTyped _ _

/-- Going through a value fails, if at all, as a reading. -/
lemma onlyReading_elements : OnlyReading v.elements := by
  unfold elements
  split
  · exact onlyReading_ok _
  · exact onlyReading_illTyped _ _

/-- Asking for a text fails, if at all, as a reading. -/
lemma onlyReading_text (need : Need) : OnlyReading (v.text need) := by
  unfold text
  split
  · exact onlyReading_ok _
  · exact onlyReading_illTyped _ _

/-- Counting the parameters by name fails, if at all, as a reading. -/
lemma onlyReading_pairCount : OnlyReading v.pairCount := by
  unfold pairCount
  split
  · exact onlyReading_count _
  · exact onlyReading_lacksPart _ _

/-- Counting the statements of a program fails, if at all, as a reading. -/
lemma onlyReading_bodyCount : OnlyReading v.bodyCount := by
  unfold bodyCount
  split
  · exact onlyReading_count _
  · exact onlyReading_lacksPart _ _

/-- Asking for the names of a block fails, if at all, as a reading. -/
lemma onlyReading_blockParams : OnlyReading v.blockParams := by
  unfold blockParams
  split
  · exact onlyReading_ok _
  · exact onlyReading_ok _
  · exact onlyReading_lacksPart _ _

/-- Asking whether a text node is blank fails, if at all, as a reading. -/
lemma onlyReading_isBlankNode : OnlyReading v.isBlankNode := by
  unfold isBlankNode
  split
  · exact onlyReading_ok _
  · exact onlyReading_lacksPart _ _
  · exact onlyReading_ok _

/-- Looking for what is no blank text fails, if at all, as a reading. -/
lemma onlyReading_anyPresent (vs : List Value) : OnlyReading (anyPresent vs) := by
  induction vs with
  | nil => exact onlyReading_ok false
  | cons v vs ih =>
    rw [anyPresent]
    refine v.onlyReading_isBlankNode.bind fun blank => ?_
    cases blank with
    | true => exact ih
    | false => exact onlyReading_ok true

/-- Asking whether an element has content fails, if at all, as a reading. -/
lemma onlyReading_hasContent : OnlyReading v.hasContent :=
  v.onlyReading_elements.bind onlyReading_anyPresent

/-- Asking for the parts of a path fails, if at all, as a reading. -/
lemma onlyReading_partTexts (index : Nat) (vs : List Value) :
    OnlyReading (partTexts index vs) := by
  induction vs generalizing index with
  | nil => exact onlyReading_ok []
  | cons v vs ih =>
    rw [partTexts]
    exact (v.onlyReading_text _).bind fun s => (ih (index + 1)).bind fun others =>
      onlyReading_ok (s :: others)

/-- Putting points between the parts of a path fails, if at all, as a reading. -/
lemma onlyReading_dotted : OnlyReading v.dotted := by
  unfold dotted
  split
  · exact (onlyReading_partTexts 0 _).bind fun texts => onlyReading_ok (".".intercalate texts)
  · exact onlyReading_illTyped _ _

/-- Looking for quotes fails, if at all, as a reading. -/
lemma onlyReading_containsQuote : OnlyReading v.containsQuote := by
  unfold containsQuote
  split
  · exact onlyReading_ok _
  · exact onlyReading_ok _
  · exact onlyReading_ok _
  · exact onlyReading_illTyped _ _

/-- Quoting a literal fails, if at all, as a reading. -/
lemma onlyReading_quotedLiteral (quote : String) : OnlyReading (v.quotedLiteral quote) := by
  refine v.onlyReading_containsQuote.bind fun quoted => ?_
  cases quoted with
  | true =>
    cases v with
    | str s => exact onlyReading_ok (Part.str s)
    | _ => exact onlyReading_ok (Part.doc (.stray _))
  | false =>
    exact (v.onlyReading_text _).bind fun s => onlyReading_ok (Part.str (quote ++ s ++ quote))

/-- Asking whether an element closes itself fails, if at all, as a reading. -/
lemma onlyReading_selfCloses (tag children : Value) : OnlyReading (tag.selfCloses children) := by
  have htag : OnlyReading tag.tagName? := by
    unfold tagName?
    split
    · exact onlyReading_illTyped _ _
    · exact onlyReading_illTyped _ _
    · exact onlyReading_illTyped _ _
    · exact onlyReading_ok _
  refine htag.bind fun name? => ?_
  cases name? with
  | none => exact onlyReading_ok false
  | some name =>
    simp only
    split
    · exact children.onlyReading_count.bind fun k => onlyReading_ok (k == 0)
    · exact onlyReading_ok false

end Value

/-! ## Rules -/

/-- The strays in what several things are printed as, in order. -/
def Part.straysAll (parts : List Part) : List Fault :=
  parts.flatMap strays

/-- Parts among documents have their strays. -/
@[simp] lemma Part.flatMap_strays_map_document (parts : List Part) :
    (parts.map document).flatMap Document.strays = straysAll parts :=
  List.flatMap_map ..

/-- Whatever a computation meets has a property: a fault that a row of its record is stopped by, the
fault that it fails with, and the strays in what it comes to. -/
def Logged.Meets {α : Type} (P : Fault → Prop) (strays : α → List Fault) (x : Logged α) : Prop :=
  x.Ends (fun row => ∀ e, row.check = .error e → P e) P fun a => ∀ e ∈ strays a, P e

section

variable {P : Fault → Prop} (hread : ∀ e : Fault, e.IsReading → P e)

include hread

/-- A reading on the way meets what readings fail with. -/
lemma Fault.OnlyReading.ends {α : Type} {L : LogRow → Prop} {x : Except Fault α}
    (hx : OnlyReading x) :
    (Traced.ofExcept x : Logged α).Ends L P fun a => x = .ok a where
  log _ hrow := nomatch hrow
  error e he := hread e (hx e he)
  ok _ ha := ha

/-- What is printed where there is something to print. -/
lemma Logged.meets_ifAny {count : Except Fault Nat} {printed : Logged Document}
    (hcount : Fault.OnlyReading count) (hprinted : printed.Meets P Document.strays) :
    (Logged.ifAny count printed).Meets P Document.strays := by
  refine (hcount.ends hread).bind fun k _ => ?_
  split
  · exact hprinted
  · exact ends_pure (List.forall_mem_nil P)

/-- The items of a list between some markup, where there are some. -/
lemma Logged.meets_ifAny_items {count : Except Fault Nat} {printed : Logged (List Part)}
    {markup : List Document → Document} (hcount : Fault.OnlyReading count)
    (hmarkup : ∀ ds, (markup ds).strays = ds.flatMap Document.strays)
    (hprinted : printed.Meets P Part.straysAll) :
    (Logged.ifAny count do return markup ((← printed).map Part.document)).Meets P
      Document.strays := by
  refine Logged.meets_ifAny hread hcount (hprinted.bind fun parts hparts => ends_pure ?_)
  rwa [hmarkup, Part.flatMap_strays_map_document]

/-- One part between some markup, where there is something in it. -/
lemma Logged.meets_ifAny_part {count : Except Fault Nat} {printed : Logged Part}
    {markup : Document → Document} (hcount : Fault.OnlyReading count)
    (hmarkup : ∀ d, (markup d).strays = d.strays) (hprinted : printed.Meets P Part.strays) :
    (Logged.ifAny count do return markup (← printed)).Meets P Document.strays := by
  refine Logged.meets_ifAny hread hcount (hprinted.bind fun part hpart => ends_pure ?_)
  rw [hmarkup]
  exact hpart

/-- A call meets what its parts meet, or a reading. -/
lemma meets_callDocument (params named : Value) {callee printedNamed : Logged Part}
    {printedParams : Logged (List Part)} (hcallee : callee.Meets P Part.strays)
    (hparams : printedParams.Meets P Part.straysAll) (hnamed : printedNamed.Meets P Part.strays) :
    (callDocument callee params printedParams named printedNamed).Meets P Document.strays := by
  have hpositional := Logged.meets_ifAny_items hread params.onlyReading_count
    Document.strays_positional hparams
  have hbyName := Logged.meets_ifAny_part hread named.onlyReading_pairCount
    Document.strays_named hnamed
  refine hcallee.bind fun head hhead => hpositional.bind fun positional hpositional => ?_
  have hend : ∀ byName : Document, (∀ e ∈ byName.strays, P e) →
      (pure (Markup.call head positional byName) : Logged Document).Meets P Document.strays := by
    intro byName hbyName
    refine ends_pure ?_
    rw [Document.strays_call]
    exact List.forall_mem_append.mpr ⟨hhead, List.forall_mem_append.mpr ⟨hpositional, hbyName⟩⟩
  cases named with
  | null => exact hend .empty (List.forall_mem_nil P)
  | _ => exact hbyName.bind hend

/-- The names of a block may be strays. -/
lemma meets_names {blockParams : Value}
    (hnames : ∀ vs, blockParams.elements = .ok vs → ∀ v ∈ vs, P v.strayFault) :
    (Logged.ifAny blockParams.count do
      return Markup.blockParams ((← Traced.ofExcept blockParams.elements).map
        Value.document)).Meets P Document.strays := by
  refine Logged.meets_ifAny hread blockParams.onlyReading_count
    ((blockParams.onlyReading_elements.ends hread).bind fun vs hvs => ends_pure ?_)
  intro e he
  rw [Document.strays_blockParams, List.flatMap_map] at he
  obtain ⟨v, hv, he⟩ := List.mem_flatMap.mp he
  rw [Value.eq_strayFault_of_mem he]
  exact hnames vs hvs v hv

/-- A block meets what its parts meet, a reading, or a stray among its names. -/
lemma meets_blockDocument {callee printedContent printedInverse : Logged Part}
    {call : Logged Document} {content inverse : Value} (hcallee : callee.Meets P Part.strays)
    (hcall : call.Meets P Document.strays)
    (hnames : ∀ blockParams vs, content.blockParams = .ok blockParams →
      blockParams.elements = .ok vs → ∀ v ∈ vs, P v.strayFault)
    (hcontent : printedContent.Meets P Part.strays)
    (hinverse : printedInverse.Meets P Part.strays) :
    (blockDocument callee call content inverse printedContent printedInverse).Meets P
      Document.strays := by
  refine (content.onlyReading_blockParams.ends hread).bind fun blockParams hblockParams => ?_
  have hclause := meets_names hread (hnames blockParams · hblockParams)
  have hbody := Logged.meets_ifAny_part hread content.onlyReading_bodyCount
    Document.strays_blockBody hcontent
  have hotherwise := Logged.meets_ifAny_part hread inverse.onlyReading_bodyCount
    Document.strays_blockBody hinverse
  refine hcall.bind fun call hcall => hclause.bind fun clause hclause =>
    hbody.bind fun body hbody => ?_
  have hheader : ∀ e ∈ (Markup.blockHeader call clause).strays, P e := by
    rw [Document.strays_blockHeader]
    exact List.forall_mem_append.mpr ⟨hcall, hclause⟩
  have hend : ∀ otherwise : Document, (∀ e ∈ otherwise.strays, P e) → (do
      let closing ← callee
      return Markup.block (Markup.blockHeader call clause) body otherwise closing :
        Logged Document).Meets P Document.strays := by
    intro otherwise hotherwise
    refine hcallee.bind fun closing hclosing => ends_pure ?_
    rw [Document.strays_block]
    exact List.forall_mem_append.mpr ⟨hheader, List.forall_mem_append.mpr
      ⟨hbody, List.forall_mem_append.mpr ⟨hotherwise, hclosing⟩⟩⟩
  cases inverse with
  | null => exact hend .empty (List.forall_mem_nil P)
  | _ =>
    refine (hotherwise.map fun body hbody => ?_).bind hend
    rwa [Document.strays_blockInverse]

/-- An element meets what its parts meet, or a reading. -/
lemma meets_elementDocument {tag attributes modifiers children : Value}
    {printedAttributes printedModifiers : Logged (List Part)} {printedChildren : Logged Document}
    (hattributes : printedAttributes.Meets P Part.straysAll)
    (hmodifiers : printedModifiers.Meets P Part.straysAll)
    (hchildren : printedChildren.Meets P Document.strays) :
    (elementDocument tag attributes printedAttributes modifiers printedModifiers children
      printedChildren).Meets P Document.strays := by
  have hattributesDoc := Logged.meets_ifAny_items hread attributes.onlyReading_count
    Document.strays_attributes hattributes
  have hmodifiersDoc := Logged.meets_ifAny_items hread modifiers.onlyReading_count
    (Document.strays_modifiers attributes.isTruthy) hmodifiers
  refine ((Value.onlyReading_selfCloses tag children).ends hread).bind fun selfCloses _ => ?_
  refine hattributesDoc.bind fun attributesDoc hattributesDoc =>
    hmodifiersDoc.bind fun modifiersDoc hmodifiersDoc => ?_
  refine ((tag.onlyReading_text _).ends hread).bind fun name _ => ?_
  refine (children.onlyReading_hasContent.ends hread).bind fun hasContent _ => ?_
  have hendTag : ∀ e ∈ (if selfCloses then .empty else Markup.endTag name : Document).strays,
      P e := by
    cases selfCloses <;> simp
  have hend : ∀ content : Document, (∀ e ∈ content.strays, P e) →
      (pure (Markup.element (Markup.startTag name attributesDoc modifiersDoc selfCloses) content
        (if selfCloses then .empty else Markup.endTag name)) : Logged Document).Meets P
          Document.strays := by
    intro content hcontent
    refine ends_pure ?_
    rw [Document.strays_element, Document.strays_startTag]
    exact List.forall_mem_append.mpr
      ⟨List.forall_mem_append.mpr ⟨hattributesDoc, hmodifiersDoc⟩,
        List.forall_mem_append.mpr ⟨hcontent, hendTag⟩⟩
  cases hasContent with
  | true =>
    refine (hchildren.map fun content hcontent => ?_).bind hend
    rwa [Document.strays_children]
  | false => exact hend .empty (List.forall_mem_nil P)

end

namespace Value

variable {P : Fault → Prop} {style : QuoteStyle} {depth : Nat}

/-- Items are printed one after the other. -/
lemma meets_printAll {vs : List Value}
    (h : ∀ v ∈ vs, (v.print style depth).Meets P Part.strays) :
    (printAll style depth vs).Meets P Part.straysAll := by
  induction vs with
  | nil =>
    rw [printAll]
    exact ends_pure (List.forall_mem_nil P)
  | cons v vs ih =>
    rw [printAll]
    have hothers := ih fun w hw => h w (by simp [hw])
    refine (h v (by simp)).bind fun printed hprinted => hothers.bind fun others hothers => ?_
    exact ends_pure (List.forall_mem_append.mpr ⟨hprinted, hothers⟩)

/-- Statements are printed one after the other, and each is read first. -/
lemma meets_printBody (hread : ∀ e : Fault, e.IsReading → P e) {vs : List Value}
    (h : ∀ v ∈ vs, (v.print style depth).Meets P Part.strays) (after : Bool) :
    (printBody style depth after vs).Meets P fun ds => ds.flatMap Document.strays := by
  induction vs generalizing after with
  | nil =>
    rw [printBody]
    exact ends_pure (List.forall_mem_nil P)
  | cons v vs ih =>
    have hprinted : (v.printStatement style depth).Meets P Document.strays := by
      unfold printStatement
      split
      · exact ends_pure (by simp)
      · exact (h v (by simp)).map fun part hpart => hpart
    have hrows : (v.statementRows style depth after).Meets P
        fun ds => ds.flatMap Document.strays := by
      refine (v.onlyReading_isBlankNode.ends hread).bind fun blank _ => ?_
      cases blank with
      | true => exact ends_pure (List.forall_mem_nil P)
      | false =>
        refine hprinted.bind fun printed hprinted => ends_pure ?_
        cases after <;> simpa using hprinted
    rw [printBody_cons]
    refine hrows.bind fun rows hrows =>
      (ih (fun w hw => h w (by simp [hw])) _).bind fun others hothers => ends_pure ?_
    simp only [List.flatMap_append]
    exact List.forall_mem_append.mpr ⟨hrows, hothers⟩

end Value

/-! ## Trees -/

/-- What printing a tree can meet.  A value where a node belongs may be no node, and a field that is
gone through no list; then the fault tells the type of what is there instead.  Some integer in the
tree may have too many digits to be written. -/
def Fault.IsMetIn (root : Node) : Fault → Prop
  | .unsupportedKind kind =>
    ∃ (n : Node) (v : Value), n.Occurs root ∧ n.Holds v ∧ v ≠ .null ∧ (∀ m, v ≠ .node m) ∧
      kind = v.typeName
  | .notAList kind field found =>
    ∃ (n : Node) (v : Value), n.Occurs root ∧ n.field? field = some v ∧ v.isList = false ∧
      kind = n.kind.name ∧ found = v.typeName
  | .illTyped _ _ | .lacksPart _ _ | .strayDocument _ => True
  | .unwritable => ¬ root.IsWritable
  | .missingField _ _ | .missingKey _ _ | .unknownSetting _ | .mistypedSetting _ _ _
  | .negativeSetting _ _ | .overflow _ | .stopped _ => False

namespace Fault

variable {m n : Node} {e : Fault}

/-- Readings fail with what can be met in every tree. -/
lemma IsReading.isMetIn (h : e.IsReading) : e.IsMetIn n := by
  cases e with
  | illTyped | lacksPart => trivial
  | _ => cases h

/-- What can be met in a node that another one holds can be met in that one. -/
lemma IsMetIn.of_holds (h : e.IsMetIn m) (hm : n.Holds (.node m)) : e.IsMetIn n := by
  cases e with
  | unsupportedKind | notAList =>
    obtain ⟨k, v, hk, hv⟩ := h
    exact ⟨k, v, .inside hm.mem_children hk, hv⟩
  | unwritable => exact fun hn => h fun i hi => hn i (hm.integers_subset hi)
  | _ => exact h

end Fault

namespace Value

variable {n : Node} {v : Value}

/-- A stray whose integers are integers of a tree can be met in the tree. -/
lemma strayFault_isMetIn (hv : v.integers ⊆ n.integers) : v.strayFault.IsMetIn n := by
  rcases v.strayFault_cases with h | ⟨hwritable, h⟩
  · rw [h]
    trivial
  · rw [h]
    exact fun hn => hwritable fun i hi => hn i (hv hi)

/-- A visited value whose integers are integers of a tree is stopped by what can be met there. -/
lemma isMetIn_of_visited (hv : v.integers ⊆ n.integers) {e : Fault} (he : v.visited = .error e) :
    e.IsMetIn n := by
  obtain ⟨hwritable, rfl⟩ := visited_eq_error he
  exact fun hn => hwritable fun i hi => hn i (hv hi)

/-- A value in a field stands among documents, or is a stray that can be met in the node. -/
lemma isMetIn_of_mem_part {name : String} (hv : n.field? name = some v) :
    ∀ e ∈ v.part.strays, e.IsMetIn n := by
  intro e he
  rw [eq_strayFault_of_mem he]
  exact strayFault_isMetIn (Node.integers_subset_of_field? _ hv)

/-- What a program or an element names has no other integers than it has. -/
lemma integers_subset_of_blockParams {v blockParams w : Value} {vs : List Value}
    (hv : v.blockParams = .ok blockParams) (hvs : blockParams.elements = .ok vs) (hw : w ∈ vs) :
    w.integers ⊆ v.integers := by
  have helements : blockParams.elements? = some vs := by
    unfold elements at hvs
    split at hvs
    · next h => rw [h, Except.ok.inj hvs]
    · cases hvs
  have hnames := integers_subset_of_elements? helements hw
  unfold Value.blockParams at hv
  split at hv
  · obtain rfl := Except.ok.inj hv
    exact List.Subset.trans hnames (Node.integers_subset_of_field? "block_params" rfl)
  · obtain rfl := Except.ok.inj hv
    exact List.Subset.trans hnames (Node.integers_subset_of_field? "block_params" rfl)
  · cases hv

end Value

namespace Node

variable {style : QuoteStyle} {n : Node} {name : String} {v : Value}

section

variable
  (ih : ∀ m ∈ n.children, ∀ depth, (m.print style depth).Meets (Fault.IsMetIn m) Part.strays)

include ih

/-- Whatever a node holds meets what is in the node, if its children do. -/
lemma meets_print_held (hv : n.Holds v) (depth : Nat) :
    (v.print style depth).Meets (Fault.IsMetIn n) Part.strays := by
  have hvisited : ∀ e, v.visited = .error e → e.IsMetIn n := fun e he =>
    Value.isMetIn_of_visited hv.integers_subset he
  have hother : v ≠ .null → (∀ m, v ≠ .node m) → (Fault.unsupportedKind v.typeName).IsMetIn n :=
    fun hnull hnode => ⟨n, v, .here n, hv, hnull, hnode, rfl⟩
  cases v with
  | null => exact ends_pure (List.forall_mem_nil _)
  | node m =>
    have hm := (ih m hv.mem_children depth).mono (fun _ hrow e he => (hrow e he).of_holds hv)
      (fun _ he => he.of_holds hv) fun _ hpart e he => (hpart e he).of_holds hv
    exact (ends_note hvisited).bind fun _ _ => hm
  | _ =>
    exact (ends_note hvisited).bind fun _ _ => (ends_note nofun).bind fun _ _ =>
      ends_fail (hother nofun nofun)

/-- The items in a field meet what is in the node, and so does a field that holds no list. -/
lemma meets_printItems (hv : n.field? name = some v) (depth : Nat) :
    (v.printItems style depth n.kind name).Meets (Fault.IsMetIn n) Part.straysAll := by
  cases v with
  | list items =>
    exact Value.meets_printAll fun w hw => meets_print_held ih (.item hv hw) depth
  | _ => exact ends_fail ⟨n, _, .here n, hv, rfl, rfl, rfl⟩

/-- The statements in a field meet what is in the node, and so does a field that holds no list. -/
lemma meets_printStatements (hv : n.field? name = some v) (depth : Nat) :
    (v.printStatements style depth n.kind name).Meets (Fault.IsMetIn n) Document.strays := by
  cases v with
  | list items =>
    have hbody := Value.meets_printBody (fun e (he : e.IsReading) => he.isMetIn)
      (fun w hw => meets_print_held ih (.item hv hw) depth) false
    refine hbody.map fun ds hds => ?_
    rwa [Document.strays_ofList]
  | _ => exact ends_fail ⟨n, _, .here n, hv, rfl, rfl, rfl⟩

end

/-- Printing a node meets what is in the node. -/
theorem meets_print (n : Node) (depth : Nat) :
    (n.print style depth).Meets (Fault.IsMetIn n) Part.strays := by
  induction n using inductionOnChildren generalizing depth with
  | step n ih =>
    have hread : ∀ e : Fault, e.IsReading → e.IsMetIn n := fun e he => he.isMetIn
    -- Whatever a rule prints stands in a field of the node.
    have hfield (name : String) {v : Value} (hv : n.field? name = some v) :=
      meets_print_held ih (.field hv) (depth + 1)
    have hitems (name : String) {v : Value} (hv : n.field? name = some v) :=
      meets_printItems ih hv (depth + 2)
    have hstatements (name : String) {v : Value} (hv : n.field? name = some v) :=
      meets_printStatements ih hv (depth + 2)
    have hcall {callee params named : Value} (hcallee : n.field? "path" = some callee)
        (hparams : n.field? "params" = some params) (hnamed : n.field? "hash" = some named) :=
      meets_callDocument hread params named (hfield "path" hcallee) (hitems "params" hparams)
        (hfield "hash" hnamed)
    have hpart (name : String) {v : Value} (hv : n.field? name = some v) :=
      Value.isMetIn_of_mem_part hv
    cases n with
    | path whole parts => exact (parts.onlyReading_dotted.ends hread).map fun s _ => by simp
    | string value =>
      refine ((value.onlyReading_quotedLiteral _).ends hread).mono (fun _ h => h) (fun _ h => h) ?_
      intro part hliteral e he
      rw [Value.eq_strayFault_of_quotedLiteral hliteral he]
      exact Value.strayFault_isMetIn (integers_subset_of_field? "value" rfl)
    | number | boolean | null => exact ends_pure (by simp)
    | text => exact ends_pure (hpart "chars" rfl)
    | comment value =>
      exact ((value.onlyReading_text _).ends hread).bind fun _ _ => ends_pure (by simp)
    | pair =>
      refine (hfield "value" rfl).bind fun printed hprinted => ends_pure ?_
      rw [Part.strays_doc, Document.strays_pair]
      exact List.forall_mem_append.mpr ⟨hpart "key" rfl, hprinted⟩
    | attr =>
      refine (hfield "value" rfl).bind fun printed hprinted => ends_pure ?_
      rw [Part.strays_doc, Document.strays_attr]
      exact List.forall_mem_append.mpr ⟨hpart "name" rfl, hprinted⟩
    | hash =>
      refine (hitems "pairs" rfl).bind fun printed hprinted => ends_pure ?_
      rwa [Part.strays_doc, Document.strays_pairs, Part.flatMap_strays_map_document]
    | concat =>
      refine (hitems "parts" rfl).bind fun printed hprinted => ends_pure ?_
      rwa [Part.strays_doc, Document.strays_concat, Part.flatMap_strays_map_document]
    | program => exact (hstatements "body" rfl).bind fun printed hprinted => ends_pure hprinted
    | subexpression =>
      refine (hcall rfl rfl rfl).bind fun call hcall => ends_pure ?_
      rwa [Part.strays_doc, Document.strays_subexpression]
    | mustache =>
      refine (hcall rfl rfl rfl).bind fun call hcall => ends_pure ?_
      rwa [Part.strays_doc, Document.strays_mustache]
    | modifier =>
      refine (hcall rfl rfl rfl).bind fun call hcall => ends_pure ?_
      rwa [Part.strays_doc, Document.strays_modifier]
    | block callee params named content inverse =>
      have hnames : ∀ blockParams vs, content.blockParams = .ok blockParams →
          blockParams.elements = .ok vs → ∀ v ∈ vs,
            v.strayFault.IsMetIn (.block callee params named content inverse) := by
        intro blockParams vs hblockParams hvs v hv
        have hcontent := Value.integers_subset_of_blockParams hblockParams hvs hv
        exact Value.strayFault_isMetIn
          (List.Subset.trans hcontent (integers_subset_of_field? "program" rfl))
      exact (meets_blockDocument hread (hfield "path" rfl) (hcall rfl rfl rfl) hnames
        (hfield "program" rfl) (hfield "inverse" rfl)).bind fun _ hprinted => ends_pure hprinted
    | element =>
      exact (meets_elementDocument hread (hitems "attributes" rfl) (hitems "modifiers" rfl)
        (hstatements "children" rfl)).bind fun _ hprinted => ends_pure hprinted

end Node

end GlimmerFormat
