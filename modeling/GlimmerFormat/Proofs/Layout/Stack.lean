import GlimmerFormat.Proofs.Layout.Flat
import GlimmerFormat.Proofs.Layout.Decisions
import Mathlib.Logic.Relation

/-!
# Layout with a stack

A layout can be followed step by step.  What is still to be laid out stands on a stack; each step
takes the next chunk off, emits something or decides something, and puts the documents of the
chunk back in its place.  Groups are measured together with what stands below them.

* `Stage.reaches_layOut_iff`: the steps lead to the end of a layout exactly as `Document.layOut`
  has it.
* `Stage.followsLay`: the steps that take a document off the stack lead where `Document.lay`
  leads.
-/

namespace GlimmerFormat

/-- A document that waits on the stack, with the indentation of its newlines. -/
structure Chunk where
  indentation : String
  mode : Mode
  document : Document

namespace Chunk

/-- A chunk as measuring sees it. -/
def pending (c : Chunk) : Pending :=
  ⟨c.mode, c.document⟩

/-- A document in the place of a chunk. -/
def withDocument (c : Chunk) (d : Document) : Chunk :=
  { c with document := d }

/-- A document in the place of a chunk, in a mode of its own. -/
def withMode (c : Chunk) (mode : Mode) (d : Document) : Chunk :=
  { c with mode := mode, document := d }

/-- Takes a chunk off the stack at a column: the column behind it and the chunks that come in
its place. -/
def take (page : Page) (c : Chunk) (below : List Chunk) (column : Nat) :
    Laying (Nat × List Chunk) :=
  match c.document with
  | .empty => return (column, [])
  | .text s => return (← Page.emitText s column, [])
  | .newline flat =>
    match c.mode with
    | .flat => return (← Page.emitFlatBreak flat column, [])
    | .broken => return (← page.emitNewline c.indentation, [])
  | .hardline => return (← page.emitNewline c.indentation, [])
  | .concat docs => return (column, docs.map c.withDocument)
  | .indent d => return (column, [⟨c.indentation ++ page.unit, c.mode, d⟩])
  | .align amount d => return (column, [⟨c.indentation ++ Document.spaces amount, c.mode, d⟩])
  | .group d =>
    match c.mode with
    | .flat => return (column, [c.withDocument d])
    | .broken => do
      let mode ← page.groupMode d (below.map pending) column
      return (column, [c.withMode mode d])
  | .fill [] => return (column, [])
  | .fill [content] => do
    let mode ← page.lastMode content column
    return (column, [c.withMode mode content])
  | .fill [content, separator] => do
    let mode ← page.lastMode content column
    return (column, [c.withMode mode content, c.withMode mode separator])
  | .fill (content :: separator :: next :: parts) => do
    let modes ← page.pairModes content separator next column
    return (column, [c.withMode modes.1 content, c.withMode modes.2 separator,
      c.withDocument (.fill (next :: parts))])
  | .ifBreak broken flat =>
    match c.mode with
    | .flat => return (column, [c.withDocument flat])
    | .broken => return (column, [c.withDocument broken])
  | .stray fault => .fail fault

end Chunk

/-- A layout under way: the column, what happened so far, and what waits on the stack. -/
structure Stage where
  column : Nat
  log : List LayoutEvent
  stack : List Chunk

namespace Stage

/-- The first stage of the layout of a document. -/
def start (d : Document) : Stage :=
  ⟨0, [], [⟨"", .broken, d⟩]⟩

/-- One step takes the next chunk off the stack. -/
inductive Step (page : Page) : Stage → Stage → Prop
  | take {column column' : Nat} {log log' : List LayoutEvent} {c : Chunk}
      {below pushed : List Chunk}
      (h : c.take page below column = ⟨log', .ok (column', pushed)⟩) :
      Step page ⟨column, log, c :: below⟩ ⟨column', log ++ log', pushed ++ below⟩

/-- Some steps lead from one stage to another. -/
abbrev Reaches (page : Page) : Stage → Stage → Prop :=
  Relation.ReflTransGen (Step page)

variable {page : Page}

/-! ## The steps of a layout -/

variable {column column' : Nat} {log' : List LayoutEvent} {below : List Chunk}

/-- Taking a chunk off is one step. -/
lemma reaches_take (log : List LayoutEvent) {c : Chunk} {pushed : List Chunk}
    (h : c.take page below column = ⟨log', .ok (column', pushed)⟩) :
    Reaches page ⟨column, log, c :: below⟩ ⟨column', log ++ log', pushed ++ below⟩ :=
  .single (.take h)

/-- Taking a chunk off that leaves nothing in its place. -/
lemma reaches_emitted (log : List LayoutEvent) {c : Chunk}
    (h : c.take page below column = ⟨log', .ok (column', [])⟩) :
    Reaches page ⟨column, log, c :: below⟩ ⟨column', log ++ log', below⟩ :=
  reaches_take log h

/-- Taking a chunk off that is replaced by others, where nothing happens. -/
lemma reaches_replaced (log : List LayoutEvent) {c : Chunk} {pushed : List Chunk}
    (h : c.take page below column = ⟨[], .ok (column, pushed)⟩) :
    Reaches page ⟨column, log, c :: below⟩ ⟨column, log, pushed ++ below⟩ := by
  have hstep := reaches_take log h
  rwa [List.append_nil] at hstep

/-- Whether the steps that take a document off the stack lead where laying it out leads, at an
indentation and in a mode. -/
def FollowsLay (page : Page) (indentation : String) (mode : Mode) (d : Document) : Prop :=
  ∀ {rest : List Pending} {below : List Chunk} {column column' : Nat} {log' : List LayoutEvent}
    (log : List LayoutEvent), Pending.Alike rest (below.map Chunk.pending) →
    d.lay page indentation mode rest column = ⟨log', .ok column'⟩ →
    Reaches page ⟨column, log, ⟨indentation, mode, d⟩ :: below⟩ ⟨column', log ++ log', below⟩

/-- The steps lay out documents one after the other if they lay out each of them. -/
lemma reaches_of_layAll {indentation : String} {mode : Mode} {ds : List Document}
    (h : ∀ d ∈ ds, FollowsLay page indentation mode d) {rest : List Pending}
    (log : List LayoutEvent) (hrest : Pending.Alike rest (below.map Chunk.pending))
    (hlay : Document.layAll page indentation mode ds rest column = ⟨log', .ok column'⟩) :
    Reaches page ⟨column, log, ds.map (Chunk.mk indentation mode) ++ below⟩
      ⟨column', log ++ log', below⟩ := by
  induction ds generalizing column log log' with
  | nil =>
    obtain ⟨rfl, rfl⟩ := Traced.eq_of_ok hlay
    rw [List.append_nil]
    exact .refl
  | cons d ds ih =>
    obtain ⟨log₁, column₁, log₂, hd, hds, rfl⟩ := Traced.bind_eq_ok.mp hlay
    have hbelow : Pending.Alike (⟨mode, .concat ds⟩ :: rest)
        ((ds.map (Chunk.mk indentation mode) ++ below).map Chunk.pending) := by
      have hcongr := (Pending.alike_concat mode ds rest).trans
        (Pending.Alike.append_left (ds.map (Pending.mk mode)) hrest)
      simpa [Function.comp_def, Chunk.pending] using hcongr
    have hfirst := h d (by simp) log hbelow hd
    have hothers := ih (fun e he => h e (by simp [he])) (log ++ log₁) hds
    rw [← List.append_assoc]
    exact hfirst.trans hothers

/-- The steps lay out a fill if they lay out each of its parts in each mode. -/
lemma followsLay_fill {indentation : String} {mode : Mode} {parts : List Document}
    (h : ∀ d ∈ parts, ∀ mode, FollowsLay page indentation mode d) :
    FollowsLay page indentation mode (.fill parts) := by
  intro rest below column column' log' log hrest hlay
  rw [Document.lay] at hlay
  induction parts using List.twoStepInduction generalizing column log log' with
  | nil =>
    obtain ⟨rfl, rfl⟩ := Traced.eq_of_ok hlay
    exact reaches_emitted log rfl
  | singleton content =>
    obtain ⟨last, hlast, hcontent⟩ := Document.layFill_last_eq_ok.mp hlay
    have htake : Chunk.take page ⟨indentation, mode, .fill [content]⟩ below column =
        ⟨[], .ok (column, [⟨indentation, last, content⟩])⟩ := by
      simp [Chunk.take, hlast, Chunk.withMode]
    have hbehind := h content (by simp) last log hrest hcontent
    exact (reaches_replaced log htake).trans hbehind
  | cons_cons content separator parts ih _ =>
    cases parts with
    | nil =>
      obtain ⟨last, first, column₁, second, hlast, hcontent, hseparator, rfl⟩ :=
        Document.layFill_two_eq_ok.mp hlay
      have htake : Chunk.take page ⟨indentation, mode, .fill [content, separator]⟩ below column =
          ⟨[], .ok (column, [⟨indentation, last, content⟩, ⟨indentation, last, separator⟩])⟩ := by
        simp [Chunk.take, hlast, Chunk.withMode]
      have hbehind : Pending.Alike (⟨last, separator⟩ :: rest)
          ((⟨indentation, last, separator⟩ :: below : List Chunk).map Chunk.pending) :=
        hrest.cons ⟨last, separator⟩
      have hfirst := h content (by simp) last log hbehind hcontent
      have hsecond := h separator (by simp) last (log ++ first) hrest hseparator
      rw [← List.append_assoc]
      exact ((reaches_replaced log htake).trans hfirst).trans hsecond
    | cons next parts =>
      obtain ⟨modes, first, column₁, second, column₂, others, hmodes, hcontent, hseparator, hparts,
        rfl⟩ := Document.layFill_pair_eq_ok.mp hlay
      have htake : Chunk.take page
          ⟨indentation, mode, .fill (content :: separator :: next :: parts)⟩ below column =
          ⟨[], .ok (column, [⟨indentation, modes.1, content⟩, ⟨indentation, modes.2, separator⟩,
            ⟨indentation, mode, .fill (next :: parts)⟩])⟩ := by
        simp [Chunk.take, hmodes, Chunk.withMode, Chunk.withDocument]
      -- The chunks below fit like what waits behind, so all is decided alike.
      have hfill : Pending.Alike (⟨mode, .fill (next :: parts)⟩ :: rest)
          ((⟨indentation, mode, .fill (next :: parts)⟩ :: below : List Chunk).map Chunk.pending) :=
        hrest.cons ⟨mode, .fill (next :: parts)⟩
      have hpairs : Pending.Alike (⟨modes.2, separator⟩ :: ⟨mode, .fill (next :: parts)⟩ :: rest)
          ((⟨indentation, modes.2, separator⟩ :: ⟨indentation, mode, .fill (next :: parts)⟩ ::
            below : List Chunk).map Chunk.pending) :=
        hfill.cons ⟨modes.2, separator⟩
      have hfirst := h content (by simp) modes.1 log hpairs hcontent
      have hsecond := h separator (by simp) modes.2 (log ++ first) hfill hseparator
      have hothers := ih (fun e he => h e (by simp [he])) (log ++ first ++ second) hparts
      rw [← List.append_assoc, ← List.append_assoc]
      exact (((reaches_replaced log htake).trans hfirst).trans hsecond).trans hothers

/-- Whatever a document is laid out as, the steps that take it off the stack lead there. -/
theorem followsLay {indentation : String} {mode : Mode} (d : Document) :
    FollowsLay page indentation mode d := by
  induction d using Document.inductionOn generalizing indentation mode with
  | empty | text s | hardline =>
    intro rest below column column' log' log hrest hlay
    obtain ⟨rfl, rfl⟩ := Traced.eq_of_ok hlay
    exact reaches_emitted log rfl
  | newline flat =>
    intro rest below column column' log' log hrest hlay
    cases mode <;>
    · obtain ⟨rfl, rfl⟩ := Traced.eq_of_ok hlay
      exact reaches_emitted log rfl
  | stray =>
    intro rest below column column' log' log hrest hlay
    cases hlay
  | concat docs ih =>
    intro rest below column column' log' log hrest hlay
    have hdocs := reaches_of_layAll (fun d hd => @ih d hd indentation mode) log hrest hlay
    exact (reaches_replaced log rfl).trans hdocs
  | fill parts ih => exact followsLay_fill fun d hd mode => @ih d hd indentation mode
  | indent d ih | align amount d ih =>
    intro rest below column column' log' log hrest hlay
    exact (reaches_replaced log rfl).trans (ih log hrest hlay)
  | group d ih =>
    intro rest below column column' log' log hrest hlay
    cases mode with
    | flat => exact (reaches_replaced log rfl).trans (ih log hrest hlay)
    | broken =>
      obtain ⟨log₁, mode, log₂, hmode, hchild, rfl⟩ := Traced.bind_eq_ok.mp hlay
      -- The stack fits like what follows, so the group breaks in both or in neither.
      have htake : Chunk.take page ⟨indentation, .broken, .group d⟩ below column =
          ⟨log₁, .ok (column, [⟨indentation, mode, d⟩])⟩ := by
        rw [Page.groupMode_congr hrest] at hmode
        simp [Chunk.take, hmode, Chunk.withMode]
      rw [← List.append_assoc]
      exact (reaches_take log htake).trans (ih (log ++ log₁) hrest hchild)
  | ifBreak broken flat ihb ihf =>
    intro rest below column column' log' log hrest hlay
    cases mode with
    | flat => exact (reaches_replaced log rfl).trans (ihf log hrest hlay)
    | broken => exact (reaches_replaced log rfl).trans (ihb log hrest hlay)

/-! ## The end of a layout -/

/-- A stage has no more than one next stage. -/
lemma step_unique : Relator.RightUnique (Step page) := by
  rintro s t t' ⟨h⟩ ⟨h'⟩
  rw [h] at h'
  obtain ⟨rfl, hpushed⟩ := Traced.eq_of_ok h'
  obtain ⟨rfl, rfl⟩ := Prod.mk.inj hpushed
  rfl

/-- Nothing happens once the stack is empty. -/
lemma eq_of_reaches_of_stack_eq_nil {s t : Stage} (h : Reaches page s t) (hs : s.stack = []) :
    t = s := by
  rcases h.cases_head with heq | ⟨u, hstep, -⟩
  · exact heq.symm
  · cases hstep
    cases hs

/-- The steps lead to the end of a layout exactly as the layout has it. -/
theorem reaches_layOut_iff {d : Document} (hd : d.IsProper) {column : Nat}
    {log : List LayoutEvent} :
    Reaches page (start d) ⟨column, log, []⟩ ↔ d.layOut page = ⟨log, .ok column⟩ := by
  have hreach : ∀ {column log}, d.layOut page = ⟨log, .ok column⟩ →
      Reaches page (start d) ⟨column, log, []⟩ := fun h =>
    followsLay d [] (Pending.Alike.refl []) h
  refine ⟨fun h => ?_, hreach⟩
  obtain ⟨log', column', hlay⟩ := Document.exists_layOut page hd
  rcases h.total_of_right_unique step_unique (hreach hlay) with hto | hto
  · have heq := eq_of_reaches_of_stack_eq_nil hto rfl
    cases heq
    exact hlay
  · have heq := eq_of_reaches_of_stack_eq_nil hto rfl
    cases heq
    exact hlay

end Stage

end GlimmerFormat
