import GlimmerFormat.Proofs.Walk.Runs

/-!
# Walks that compute

What is done at the positions of a walk may be a computation that depends on the position alone.
Such a walk goes nowhere by itself, and going down with it is computing further down.  Other walks
keep a record as they go, and what they put there is what some computation gives.

* `Walk.logged_atField`, `Walk.visitItems_ofLogged`: computing at a field and at the items of a
  list.
* `Walk.Records`: a walk puts on record what a computation gives, with rules for putting walks
  together.
-/

namespace GlimmerFormat

namespace Walk

variable {ρ α β : Type}

/-! ## Computations at positions -/

/-- Does what is to be done at the current position. -/
def ofLogged (f : Position → Logged α) : Walk ρ α :=
  ExceptT.mk fun t => ((f t.position).outcome, { t with log := t.log ++ (f t.position).log })

/-- What a walk from a position logs and gives. -/
def logged (visit : Walk Unit α) (p : Position) : Logged α :=
  ⟨(visit.run ⟨p, [], []⟩).2.log, (visit.run ⟨p, [], []⟩).1⟩

/-- Doing what is logged adds to the log of the tour and moves nowhere. -/
lemma run_ofLogged (f : Position → Logged α) (t : Tour ρ) :
    (ofLogged f).run t =
      ((f t.position).outcome, { t with log := t.log ++ (f t.position).log }) := rfl

/-- A result alone is a logged computation with an empty log. -/
lemma pure_eq_ofLogged (a : α) : (pure a : Walk ρ α) = ofLogged fun _ => pure a := by
  refine ExceptT.ext (funext fun t => ?_)
  rw [run_ofLogged, run_pure, Traced.outcome_pure, Traced.log_pure, List.append_nil]

/-- What is done at one position after the other is done at once. -/
lemma ofLogged_bind (f : Position → Logged α) (g : α → Position → Logged β) :
    (ofLogged f >>= fun a => ofLogged (g a) : Walk ρ β) =
      ofLogged fun p => f p >>= fun a => g a p := by
  refine ExceptT.ext (funext fun t => ?_)
  rw [run_bind, run_ofLogged, run_ofLogged, Traced.bind_def]
  cases (f t.position).outcome with
  | ok a => simp [run_ofLogged]
  | error e => rfl

/-- What is done one step further down is done there. -/
lemma descend_ofLogged (f : Position → Logged α) (step : Descent) (v : Value) :
    (descend step v (ofLogged f) : Walk ρ α) = ofLogged fun p => f (p.push step v) :=
  rfl

/-- What is done at the items of a list is done for one after the other. -/
lemma visitItems_ofLogged {f : Position → Logged α} {g : Nat → Value → Logged α}
    {vs : List Value}
    (h : ∀ v ∈ vs, ∀ (p : Position) (i : Nat), f (p.push (.item i) v) = g (p.depth + 1) v)
    (index : Nat) :
    (visitItems (ofLogged f) index vs : Walk ρ (List α)) =
      ofLogged fun p => vs.mapM (g (p.depth + 1)) := by
  induction vs generalizing index with
  | nil => exact pure_eq_ofLogged []
  | cons v vs ih =>
    have hfirst : (descend (.item index) v (ofLogged f) : Walk ρ α) =
        ofLogged fun p => g (p.depth + 1) v := by
      simp only [descend_ofLogged, h v (by simp)]
    have hrest : ∀ a : α, (do
        let others ← visitItems (ofLogged f) (index + 1) vs
        return a :: others : Walk ρ (List α)) =
          ofLogged fun p => do
            let others ← vs.mapM (g (p.depth + 1))
            return a :: others := by
      intro a
      rw [ih fun w hw => h w (by simp [hw])]
      simp only [pure_eq_ofLogged, ofLogged_bind]
    simp only [visitItems, hfirst, hrest, ofLogged_bind, List.mapM_cons]

/-- Going down to a field that the current value has. -/
lemma logged_atField {f : Position → Logged α} {p : Position} {name : String} {v : Value}
    (h : p.value.field? name = some v) :
    (atField name (ofLogged f)).logged p = f (p.push (.field name) v) := by
  have hfield : (field name).run (⟨p, [], []⟩ : Tour Unit) = (.ok v, ⟨p, [], []⟩) :=
    run_field_of_some h
  rw [logged, atField, run_bind_of_ok hfield, descend_ofLogged]
  rfl

/-- Computing at the items of a list field. -/
lemma logged_atItems {f : Position → Logged α} {g : Nat → Value → Logged α} {p : Position}
    {name : String} {vs : List Value} (hfield : p.value.field? name = some (.list vs))
    (h : ∀ v ∈ vs, ∀ (q : Position) (i : Nat), f (q.push (.item i) v) = g (q.depth + 1) v) :
    (atItems name (ofLogged f)).logged p = vs.mapM (g (p.depth + 2)) := by
  have hitems : (items name).run (⟨p, [], []⟩ : Tour Unit) = (.ok vs, ⟨p, [], []⟩) :=
    run_items_of_list hfield
  rw [logged, atItems, run_bind_of_ok hitems, visitItems_ofLogged h, descend_ofLogged]
  rfl

/-- A field that holds no list is not gone through. -/
lemma run_atItems_of_not_list {visit : Walk ρ α} {name : String} {t : Tour ρ} {v : Value}
    (hfield : t.position.value.field? name = some v) (hlist : v.isList = false) :
    (atItems name visit).run t =
      (.error (.notAList t.position.value.typeName name v.typeName), t) := by
  rw [atItems, run_bind_of_error (run_items_of_not_list hfield hlist)]

/-! ## Records -/

/-- What a walk from a position logs and puts on record. -/
def recorded (visit : Walk ρ α) (p : Position) : Logged (List ρ) :=
  ⟨(visit.run ⟨p, [], []⟩).2.log,
    (visit.run ⟨p, [], []⟩).1.map fun _ => (visit.run ⟨p, [], []⟩).2.trace⟩

/-- On a tour a walk logs what a computation logs, and puts on record what it gives. -/
def Records (visit : Walk ρ α) (t : Tour ρ) (y : Logged (List ρ)) : Prop :=
  match y.outcome with
  | .ok rows =>
    ∃ a, visit.run t = (.ok a, { t with log := t.log ++ y.log, trace := t.trace ++ rows })
  | .error e =>
    ∃ trace, visit.run t = (.error e, { t with log := t.log ++ y.log, trace := trace })

variable {visit : Walk ρ α} {t : Tour ρ} {y : Logged (List ρ)}

/-- What a walk records from the beginning is what it records on a fresh tour. -/
lemma Records.recorded_eq {p : Position} (h : visit.Records ⟨p, [], []⟩ y) :
    visit.recorded p = y := by
  obtain ⟨log, outcome⟩ := y
  cases outcome with
  | ok rows =>
    obtain ⟨a, ha⟩ := h
    simp [recorded, ha, Except.map]
  | error e =>
    obtain ⟨trace, htrace⟩ := h
    simp [recorded, htrace, Except.map]

/-- A walk that succeeds and only adds rows to the record records these. -/
lemma records_of_run_eq_ok {a : α} {rows : List ρ}
    (h : visit.run t = (.ok a, { t with trace := t.trace ++ rows })) :
    visit.Records t (pure rows) :=
  ⟨a, by simpa using h⟩

/-- A result alone puts nothing on record. -/
lemma records_pure (a : α) : (pure a : Walk ρ α).Records t (pure []) :=
  records_of_run_eq_ok (a := a) (by rw [run_pure, List.append_nil])

/-- Noting a row puts this one on record. -/
lemma records_record (row : ρ) : (record row : Walk ρ Unit).Records t (pure [row]) :=
  records_of_run_eq_ok rfl

/-- Looking where the walk stands. -/
lemma records_here_bind {next : Position → Walk ρ α} (h : (next t.position).Records t y) :
    (here >>= next).Records t y := by
  rwa [Records, run_bind_of_ok (run_here t)]

/-- A walk that goes on with what was computed at the position. -/
lemma records_ofLogged_bind {f : Position → Logged α} {next : α → Walk ρ β}
    {z : α → Logged (List ρ)}
    (h : ∀ a, (next a).Records { t with log := t.log ++ (f t.position).log } (z a)) :
    (ofLogged f >>= next).Records t (f t.position >>= z) := by
  rcases hf : f t.position with ⟨log, outcome⟩
  have hrun : (ofLogged f).run t = (outcome, { t with log := t.log ++ log }) := by
    rw [run_ofLogged, hf]
  cases outcome with
  | error e => exact ⟨t.trace, run_bind_of_error hrun⟩
  | ok a =>
    have hz := h a
    rw [hf] at hz
    rw [Records, run_bind_of_ok hrun, Traced.ok_bind]
    rcases hza : z a with ⟨more, result⟩
    rw [hza] at hz
    cases result with
    | error e => simpa [Records] using hz
    | ok rows => simpa [Records] using hz

/-- One walk after another puts on record what both do. -/
lemma Records.bind {next : α → Walk ρ β} {z : List ρ → Logged (List ρ)} (h : visit.Records t y)
    (hnext : ∀ a rows, (next a).Records
      { t with log := t.log ++ y.log, trace := t.trace ++ rows } (z rows)) :
    (visit >>= next).Records t (do
      let rows ← y
      let others ← z rows
      return rows ++ others) := by
  obtain ⟨log, outcome⟩ := y
  cases outcome with
  | error e =>
    obtain ⟨trace, htrace⟩ := h
    exact ⟨trace, run_bind_of_error htrace⟩
  | ok rows =>
    obtain ⟨a, ha⟩ := h
    have hz := hnext a rows
    rcases hrows : z rows with ⟨more, result⟩
    rw [hrows] at hz
    cases result with
    | error e =>
      obtain ⟨trace, htrace⟩ := hz
      simp only [Traced.ok_bind, hrows, Traced.error_bind]
      refine ⟨trace, ?_⟩
      rw [run_bind_of_ok ha, htrace, List.append_assoc]
    | ok others =>
      obtain ⟨b, hb⟩ := hz
      simp only [Traced.ok_bind, hrows, Traced.log_pure, Traced.outcome_pure, List.append_nil]
      refine ⟨b, ?_⟩
      rw [run_bind_of_ok ha, hb, List.append_assoc, List.append_assoc]

/-- What a walk gives may be changed behind it. -/
lemma Records.map {f : α → β} (h : visit.Records t y) :
    (visit >>= fun a => pure (f a)).Records t y := by
  have hpure := h.bind fun a _ => records_pure (f a)
  simpa using hpure

/-- A walk one step further down puts on record what it does there. -/
lemma Records.descend {step : Descent} {v : Value}
    (h : visit.Records { t with position := t.position.push step v } y) :
    (Walk.descend step v visit).Records t y := by
  obtain ⟨log, outcome⟩ := y
  cases outcome with
  | ok rows =>
    obtain ⟨a, ha⟩ := h
    refine ⟨a, ?_⟩
    rw [run_descend, ha]
    simp
  | error e =>
    obtain ⟨trace, htrace⟩ := h
    refine ⟨trace, ?_⟩
    rw [run_descend, htrace]
    simp

/-- A walk through the items of a list field puts on record what it does at the items. -/
lemma records_throughItems {name : String} {vs : List Value}
    (hfield : t.position.value.field? name = some (.list vs))
    (h : (visitItems visit 0 vs).Records
      { t with position := t.position.push (.field name) (.list vs) } y) :
    (throughItems name visit).Records t y := by
  refine Records.map ?_
  rw [atItems, Records, run_bind_of_ok (run_items_of_list hfield)]
  exact h.descend

end Walk

end GlimmerFormat
