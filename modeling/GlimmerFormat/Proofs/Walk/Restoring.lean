import GlimmerFormat.Proofs.Walk.Runs

/-!
# Walks end where they began

A walk goes down step by step and steps back from every one of them, also when what is done below
fails.  So whatever a script does, and wherever it fails, it leaves the position as it found it.

Going through the items of a list is a sweep: the callback is called at one item after the other,
in order, and the first call that fails is the last one.

* `Walk.Restores`: a walk that ends where it began; the ways of putting walks together keep it.
* `Step.restores_run`: every step of a script does so.
* `Walk.IsSweep`, `Walk.exists_sweep`: the calls that going through a list makes.
* `Step.run_keeps_position_and_sweeps`: both for whole scripts.
-/

namespace GlimmerFormat

namespace Walk

variable {ρ α β : Type}

/-! ## Walks that end where they began -/

/-- A walk ends where it began, whatever becomes of it. -/
def Restores (visit : Walk ρ α) : Prop :=
  ∀ t, (visit.run t).2.position = t.position

/-- A walk that restores the position ends where it began, with whatever outcome. -/
lemma Restores.position_eq {visit : Walk ρ α} (h : visit.Restores) {t after : Tour ρ}
    {outcome : Except Fault α} (hrun : visit.run t = (outcome, after)) :
    after.position = t.position := by
  simpa [hrun] using h t

/-- A result alone moves nowhere. -/
lemma restores_pure (a : α) : (pure a : Walk ρ α).Restores :=
  fun _ => rfl

/-- A failure by itself moves nowhere. -/
lemma restores_throw (e : Fault) : (throw e : Walk ρ α).Restores :=
  fun _ => rfl

/-- Asking for the position moves nowhere. -/
lemma restores_here : (here : Walk ρ Position).Restores :=
  fun _ => rfl

/-- Noting a row moves nowhere. -/
lemma restores_record (row : ρ) : (record row).Restores :=
  fun _ => rfl

/-- One walk behind another that end where they began. -/
lemma Restores.bind {x : Walk ρ α} {f : α → Walk ρ β} (hx : x.Restores)
    (hf : ∀ a, (f a).Restores) : (x >>= f).Restores := by
  intro t
  have hposition := hx t
  rw [run_bind]
  generalize x.run t = result at hposition ⊢
  obtain ⟨outcome, after⟩ := result
  cases outcome with
  | ok a => exact (hf a after).trans hposition
  | error e => exact hposition

/-- A walk that ends where it began also if it fails, and so does what is done then. -/
lemma Restores.tryCatch {x : Walk ρ α} {handle : Fault → Walk ρ α} (hx : x.Restores)
    (hhandle : ∀ e, (handle e).Restores) : (MonadExcept.tryCatch x handle).Restores := by
  intro t
  have hposition := hx t
  rw [run_tryCatch]
  generalize x.run t = result at hposition ⊢
  obtain ⟨outcome, after⟩ := result
  cases outcome with
  | ok a => exact hposition
  | error e => exact (hhandle e after).trans hposition

/-- Going down and stepping back moves nothing but what is done below. -/
lemma Restores.run_descend {visit : Walk ρ α} (h : visit.Restores) (step : Descent) (v : Value)
    (t : Tour ρ) :
    (descend step v visit).run t =
      ((visit.run (t.movedTo (t.position.push step v))).1,
        (visit.run (t.movedTo (t.position.push step v))).2.movedTo t.position) := by
  have hbelow := h (t.movedTo (t.position.push step v))
  rw [run_descend_movedTo, hbelow, Tour.position_movedTo, Position.pop_push]

/-- What is done one step further down ends where the step began. -/
lemma Restores.descend {visit : Walk ρ α} (h : visit.Restores) (step : Descent) (v : Value) :
    (descend step v visit).Restores := by
  intro t
  rw [h.run_descend]
  rfl

/-- Looking at a field moves nowhere. -/
lemma restores_field (name : String) : (field name : Walk ρ Value).Restores := by
  intro t
  cases h : t.position.value.field? name with
  | some v => rw [run_field_of_some h]
  | none => rw [run_field_of_none h]

/-- Looking at the items of a field moves nowhere. -/
lemma restores_items (name : String) : (items name : Walk ρ (List Value)).Restores := by
  refine (restores_field name).bind fun v => ?_
  cases v with
  | list vs => exact restores_pure vs
  | _ => exact restores_here.bind fun _ => restores_throw _

variable {visit : Walk ρ α}

/-- Visiting items ends where it began if each visit does. -/
lemma Restores.visitItems (h : visit.Restores) (index : Nat) (vs : List Value) :
    (Walk.visitItems visit index vs).Restores := by
  induction vs generalizing index with
  | nil => exact restores_pure []
  | cons v vs ih =>
    refine (h.descend (.item index) v).bind fun a => ?_
    exact (ih (index + 1)).bind fun as => restores_pure (a :: as)

/-- Doing something at a field ends where it began if that does. -/
lemma Restores.atField (h : visit.Restores) (name : String) :
    (Walk.atField name visit).Restores :=
  (restores_field name).bind fun v => h.descend (.field name) v

/-- Doing something at the items of a field ends where it began if that does. -/
lemma Restores.atItems (h : visit.Restores) (name : String) :
    (Walk.atItems name visit).Restores :=
  (restores_items name).bind fun vs => (h.visitItems 0 vs).descend (.field name) (.list vs)

/-- Going through the items of a field ends where it began if each visit does. -/
lemma Restores.throughItems (h : visit.Restores) (name : String) :
    (Walk.throughItems name visit).Restores :=
  (h.atItems name).bind fun _ => restores_pure ()

/-! ## Sweeps -/

/-- A call of a callback: the tour it starts on, its outcome and the tour it ends on. -/
structure Call (ρ α : Type) where
  start : Tour ρ
  outcome : Except Fault α
  stop : Tour ρ

/-- Calls of a callback at the items of a list that stands at the position of a tour.  The items are
numbered from an index on. -/
structure IsSweep (visit : Walk ρ α) (t : Tour ρ) (index : Nat) (vs : List Value)
    (calls : List (Call ρ α)) (after : Tour ρ) : Prop where
  /-- Each call is a run of the callback. -/
  run : ∀ c ∈ calls, visit.run c.start = (c.outcome, c.stop)
  /-- There is one call at each item, in order, up to some item. -/
  start : ∀ k c, calls[k]? = some c →
    ∃ v, vs[k]? = some v ∧ c.start.position = t.position.push (.item (index + k)) v
  /-- Each call goes on with the log and the trace as the one before has left them. -/
  record : calls.map (·.start.record) ++ [after.record] = t.record :: calls.map (·.stop.record)
  /-- No call but the last one fails. -/
  succeeded : ∀ c ∈ calls.dropLast, ∃ a, c.outcome = .ok a
  /-- The calls end with the items or with a failure. -/
  ended : calls.length = vs.length ∨ ∃ c ∈ calls.getLast?, ∃ e, c.outcome = .error e
  /-- The sweep ends where it began. -/
  position : after.position = t.position

/-- No item, no call. -/
lemma isSweep_nil (visit : Walk ρ α) (t : Tour ρ) (index : Nat) :
    IsSweep visit t index [] [] t where
  run := by simp
  start := by simp
  record := rfl
  succeeded := by simp
  ended := .inl rfl
  position := rfl

/-- A call that fails is the last one. -/
lemma isSweep_of_error {t stop : Tour ρ} {index : Nat} {v : Value} {vs : List Value} {e : Fault}
    (h : visit.run (t.movedTo (t.position.push (.item index) v)) = (.error e, stop)) :
    IsSweep visit t index (v :: vs)
      [⟨t.movedTo (t.position.push (.item index) v), .error e, stop⟩]
      (stop.movedTo t.position) where
  run := by simpa using h
  start := by
    intro k c hc
    obtain ⟨rfl, rfl⟩ : k = 0 ∧ _ = c := by simpa [List.getElem?_singleton] using hc
    exact ⟨v, rfl, rfl⟩
  record := rfl
  succeeded := by simp
  ended := .inr ⟨_, rfl, e, rfl⟩
  position := rfl

/-- A call that succeeds is followed by the calls at the other items. -/
lemma IsSweep.cons {t stop after : Tour ρ} {index : Nat} {v : Value} {vs : List Value} {a : α}
    {calls : List (Call ρ α)}
    (h : visit.run (t.movedTo (t.position.push (.item index) v)) = (.ok a, stop))
    (hrest : IsSweep visit (stop.movedTo t.position) (index + 1) vs calls after) :
    IsSweep visit t index (v :: vs)
      (⟨t.movedTo (t.position.push (.item index) v), .ok a, stop⟩ :: calls) after where
  run := List.forall_mem_cons.mpr ⟨h, hrest.run⟩
  start := by
    intro k c hc
    cases k with
    | zero =>
      obtain rfl := Option.some.inj hc
      exact ⟨v, rfl, rfl⟩
    | succ k =>
      obtain ⟨w, hw, hposition⟩ := hrest.start k c hc
      refine ⟨w, hw, hposition.trans ?_⟩
      -- The other items are numbered from the next index on.
      rw [Nat.add_assoc, Nat.add_comm 1 k]
      rfl
  record := by
    rw [List.map_cons, List.map_cons, List.cons_append, hrest.record]
    rfl
  succeeded := by
    cases calls with
    | nil => simp
    | cons c calls =>
      rw [List.dropLast_cons_of_ne_nil (List.cons_ne_nil c calls)]
      exact List.forall_mem_cons.mpr ⟨⟨a, rfl⟩, hrest.succeeded⟩
  ended := by
    rcases hrest.ended with hlength | ⟨c, hlast, hfailed⟩
    · exact .inl (congrArg (· + 1) hlength)
    · refine .inr ⟨c, ?_, hfailed⟩
      rw [List.getLast?_cons, Option.mem_def.mp hlast]
      rfl
  position := hrest.position

/-- Going through the items of a list is a sweep, and its outcome is that of its calls: their
results in order, or the failure of the last one. -/
theorem exists_sweep (hvisit : visit.Restores) (index : Nat) (vs : List Value) (t : Tour ρ) :
    ∃ calls after, IsSweep visit t index vs calls after ∧
      (Walk.visitItems visit index vs).run t = (calls.mapM Call.outcome, after) := by
  induction vs generalizing index t with
  | nil => exact ⟨[], t, isSweep_nil visit t index, rfl⟩
  | cons v vs ih =>
    have hfirst := hvisit.run_descend (.item index) v t
    -- The sweep goes on if this call succeeds, from the tour that the call leaves.
    generalize hcall : visit.run (t.movedTo (t.position.push (.item index) v)) = call at hfirst
    obtain ⟨outcome, stop⟩ := call
    rw [Walk.visitItems]
    cases outcome with
    | error e => exact ⟨_, _, isSweep_of_error hcall, run_bind_of_error hfirst⟩
    | ok a =>
      obtain ⟨calls, after, hsweep, hrun⟩ := ih (index + 1) (stop.movedTo t.position)
      refine ⟨_, after, hsweep.cons hcall, ?_⟩
      rw [run_bind_of_ok hfirst, run_bind, hrun, List.mapM_cons]
      cases calls.mapM Call.outcome <;> rfl

end Walk

/-! ## Scripts -/

namespace Step

open Walk

/-- Induction over steps: what holds of the steps of a script holds of the step that runs the
script. -/
@[elab_as_elim]
theorem inductionOn {motive : Step → Prop} (step : Step) (value : motive .value)
    (name : motive .name) (depth : motive .depth) (kind : motive .kind)
    (parent : ∀ level, motive (.parent level))
    (into : ∀ field script, (∀ s ∈ script, motive s) → motive (.into field script))
    (map : ∀ field script, (∀ s ∈ script, motive s) → motive (.map field script))
    (each : ∀ field script, (∀ s ∈ script, motive s) → motive (.each field script))
    (raise : ∀ message, motive (.raise message))
    (attempt : ∀ step, motive step → motive (.attempt step)) : motive step :=
  Step.rec (motive_1 := motive) (motive_2 := fun script => ∀ s ∈ script, motive s)
    value name depth kind parent into map each raise attempt (by simp)
    (fun _ _ hstep hscript => List.forall_mem_cons.mpr ⟨hstep, hscript⟩) step

/-- Noting the answer of a step moves nowhere. -/
lemma restores_finish (label : String) (answer : Value) : (finish label answer).Restores :=
  restores_here.bind fun _ => (restores_record _).bind fun _ => restores_pure answer

/-- Noting a failed attempt moves nowhere. -/
lemma restores_giveUp (fault : Fault) : (giveUp fault).Restores :=
  restores_here.bind fun _ => (restores_record _).bind fun _ => restores_pure Value.null

/-- A script ends where it began if its steps do. -/
lemma restores_runAll {script : List Step} (h : ∀ s ∈ script, s.run.Restores) (last : Value) :
    (runAll last script).Restores := by
  induction script generalizing last with
  | nil => exact restores_pure last
  | cons step script ih =>
    refine (h step (by simp)).bind fun answer => ?_
    exact ih (fun s hs => h s (by simp [hs])) answer

/-- A step of a script ends where it began, whether it is done or fails. -/
theorem restores_run (step : Step) : step.run.Restores := by
  induction step using inductionOn with
  | value | name | depth | kind | parent level =>
    exact restores_here.bind fun _ => restores_finish _ _
  | raise message => exact restores_throw _
  | into field script ih =>
    refine ((restores_runAll ih .null).atField field).bind fun answer => ?_
    exact restores_finish "into" answer
  | map field script ih =>
    refine ((restores_runAll ih .null).atItems field).bind fun answers => ?_
    exact restores_finish "map" (.list answers)
  | each field script ih =>
    refine ((restores_runAll ih .null).throughItems field).bind fun _ => ?_
    exact restores_finish "each" .null
  | attempt step ih => exact ih.tryCatch restores_giveUp

/-- A step of a script ends where it began, whether it is done or fails, at any depth and behind any
attempt.  What is to be done at the items of a list field is done once at each of them, in order, up
to the first at which it fails. -/
theorem run_keeps_position_and_sweeps :
    (∀ (step : Step) (t : Tour TraceRow), (step.run.run t).2.position = t.position) ∧
      ∀ (field : String) (script : List Step) (vs : List Value) (t : Tour TraceRow),
        t.position.value.field? field = some (.list vs) →
          ∃ calls after,
            IsSweep (runAll .null script)
              (t.movedTo (t.position.push (.field field) (.list vs))) 0 vs calls after ∧
            (Walk.atItems field (runAll .null script)).run t =
              (calls.mapM Call.outcome, after.movedTo t.position) ∧
            (Walk.throughItems field (runAll .null script)).run t =
              ((calls.mapM Call.outcome).map fun _ => (), after.movedTo t.position) := by
  refine ⟨restores_run, ?_⟩
  intro field script vs t hfield
  have hscript : (runAll .null script).Restores := restores_runAll (fun s _ => restores_run s) .null
  obtain ⟨calls, after, hsweep, hrun⟩ := exists_sweep hscript 0 vs
    (t.movedTo (t.position.push (.field field) (.list vs)))
  have hitems : (Walk.atItems field (runAll .null script)).run t =
      (calls.mapM Call.outcome, after.movedTo t.position) := by
    rw [Walk.atItems, run_bind_of_ok (run_items_of_list hfield),
      (hscript.visitItems 0 vs).run_descend, hrun]
  refine ⟨calls, after, hsweep, hitems, ?_⟩
  rw [Walk.throughItems, run_bind, hitems]
  cases calls.mapM Call.outcome <;> rfl

/-- A script that asks each statement of a program for its characters fails at the second one, which
has none, behind an attempt inside it that fails as well. -/
theorem run_keeps_position_and_sweeps_sample :
    let statements : List Value :=
      [.node (.text (.str "a")), .node (.comment (.str "b")), .node (.text (.str "c"))]
    let script : List Step := [.attempt (.raise "no"), .into "chars" [.value]]
    let t : Tour TraceRow := ⟨.atRoot (.node (.program (.list statements) (.list []))), [], []⟩
    t.position.value.field? "body" = some (.list statements) ∧
      ((Step.map "body" script).run.run t).2.position = t.position ∧
      ((Step.map "body" script).run.run t).1 =
        .error (.missingField "MustacheCommentStatement" "chars") ∧
      ∃ calls after,
        IsSweep (runAll .null script)
          (t.movedTo (t.position.push (.field "body") (.list statements))) 0 statements calls
          after ∧
        (Walk.atItems "body" (runAll .null script)).run t =
          (calls.mapM Call.outcome, after.movedTo t.position) ∧
        (Walk.throughItems "body" (runAll .null script)).run t =
          ((calls.mapM Call.outcome).map fun _ => (), after.movedTo t.position) := by
  intro statements script t
  have hbody : t.position.value.field? "body" = some (.list statements) := rfl
  obtain ⟨hposition, hsweep⟩ := run_keeps_position_and_sweeps
  exact ⟨hbody, hposition (.map "body" script) t, rfl, hsweep "body" script statements t hbody⟩

end Step

end GlimmerFormat
