import GlimmerFormat.Traced
import Mathlib.Tactic.Lemma

/-!
# Outcomes of traced computations

What becomes of a computation made of others.  Some views of it serve in different places, and each
has its rules for putting computations together.

* `Traced.outcome_bind_of_ok`, `Traced.outcome_bind_of_error`: the outcome itself.
* `Traced.Ends`: a computation whose rows, faults and results have a property each.
* `Traced.checked_cases`, `Traced.checked_bind`: a computation whose rows are checked.
* `Traced.Ensures`: a computation whose results have a property.
* `Traced.Agree`: two computations that fail alike or end in related results.
* `Traced.Related`: two computations that come to the same outcome and leave related records.
-/

namespace GlimmerFormat.Traced

variable {ρ ε α β γ δ : Type}

/-! ## Outcomes -/

section

variable {x : Traced ρ ε α} {a : α} {b : β}

/-- Two successes in turn come to the second result. -/
lemma outcome_bind_of_ok {f : α → Traced ρ ε β} (hx : x.outcome = .ok a)
    (hf : (f a).outcome = .ok b) : (x >>= f).outcome = .ok b :=
  (outcome_bind_eq_ok x f b).mpr ⟨a, hx, hf⟩

/-- Changing the result of a success gives a success with the changed result. -/
lemma outcome_map_of_ok {f : α → β} (hx : x.outcome = .ok a) :
    (f <$> x).outcome = .ok (f a) := by
  rw [← bind_pure_comp]
  exact outcome_bind_of_ok hx rfl

/-- A fault stops what comes behind it. -/
lemma outcome_bind_of_error {e : ε} {f : α → Traced ρ ε β} (hx : x.outcome = .error e) :
    (x >>= f).outcome = .error e := by
  rw [outcome_bind, hx]
  rfl

/-- A fault behind a computation that succeeds. -/
lemma outcome_bind_of_ok_of_error {e : ε} {f : α → Traced ρ ε β} (hx : x.outcome = .ok a)
    (hf : (f a).outcome = .error e) : (x >>= f).outcome = .error e := by
  rw [outcome_bind, hx]
  exact hf

end

/-! ## Ways to end -/

/-- A computation leaves rows with one property, and it fails with a fault that has another or
succeeds with a result that has a third. -/
structure Ends (L : ρ → Prop) (P : ε → Prop) (Q : α → Prop) (x : Traced ρ ε α) : Prop where
  log : ∀ row ∈ x.log, L row
  error : ∀ e, x.outcome = .error e → P e
  ok : ∀ a, x.outcome = .ok a → Q a

section

variable {L : ρ → Prop} {P : ε → Prop} {Q : α → Prop} {R : β → Prop} {x : Traced ρ ε α}

/-- A value by itself is a result. -/
lemma ends_pure {a : α} (h : Q a) : (pure a : Traced ρ ε α).Ends L P Q where
  log := by simp
  error := nofun
  ok b hb := by
    obtain rfl : a = b := Except.ok.inj hb
    exact h

/-- A fault by itself stops a computation. -/
lemma ends_fail {e : ε} (h : P e) : (fail e : Traced ρ ε α).Ends L P Q where
  log row hrow := nomatch hrow
  error d hd := by
    obtain rfl : e = d := Except.error.inj hd
    exact h
  ok := nofun

/-- Leaving a row never fails. -/
lemma ends_note {row : ρ} (h : L row) : (note row : Traced ρ ε Unit).Ends L P fun _ => True where
  log := List.forall_mem_singleton.mpr h
  error := nofun
  ok _ _ := trivial

/-- The properties may be replaced by weaker ones. -/
lemma Ends.mono {L' : ρ → Prop} {P' : ε → Prop} {Q' : α → Prop} (hx : x.Ends L P Q)
    (hL : ∀ row, L row → L' row) (hP : ∀ e, P e → P' e) (hQ : ∀ a, Q a → Q' a) :
    x.Ends L' P' Q' where
  log row hrow := hL row (hx.log row hrow)
  error e he := hP e (hx.error e he)
  ok a ha := hQ a (hx.ok a ha)

/-- A computation that goes on from results with a property. -/
lemma Ends.bind {f : α → Traced ρ ε β} (hx : x.Ends L P Q) (hf : ∀ a, Q a → (f a).Ends L P R) :
    (x >>= f).Ends L P R := by
  obtain ⟨log, outcome⟩ := x
  cases outcome with
  | error e => exact ⟨hx.log, fun d hd => hx.error d (Except.error.inj hd ▸ rfl), nofun⟩
  | ok a =>
    have hfa := hf a (hx.ok a rfl)
    exact ⟨List.forall_mem_append.mpr ⟨hx.log, hfa.log⟩, hfa.error, hfa.ok⟩

/-- A computation whose results are changed behind it. -/
lemma Ends.map {f : α → β} (hx : x.Ends L P Q) (hf : ∀ a, Q a → R (f a)) :
    (f <$> x).Ends L P R := by
  rw [← bind_pure_comp]
  exact hx.bind fun a ha => ends_pure (hf a ha)

end

/-! ## Checks -/

section

variable {check : ρ → Except ε Unit}

/-- Rows that all pass are left one after the other. -/
lemma forM_of_forall_passes {rows : List ρ} (h : ∀ row ∈ rows, check row = .ok ()) :
    (rows.forM fun row => (⟨[row], check row⟩ : Traced ρ ε Unit)) = ⟨rows, .ok ()⟩ := by
  induction rows with
  | nil => rfl
  | cons row rows ih =>
    obtain ⟨hrow, hrows⟩ := List.forall_mem_cons.mp h
    have hothers := ih hrows
    simp only [List.forM_eq_forM] at hothers ⊢
    rw [List.forM_cons, hothers, hrow]
    rfl

/-- The first row that does not pass is the last one that is left. -/
lemma forM_of_stops {before behind : List ρ} {row : ρ} {e : ε}
    (h : ∀ r ∈ before, check r = .ok ()) (he : check row = .error e) :
    ((before ++ row :: behind).forM fun row => (⟨[row], check row⟩ : Traced ρ ε Unit)) =
      ⟨before ++ [row], .error e⟩ := by
  have hbefore := forM_of_forall_passes h
  simp only [List.forM_eq_forM] at hbefore ⊢
  rw [List.forM_append, hbefore, List.forM_cons, he]
  rfl

/-- Rows all pass, or there is a first one that does not. -/
lemma forall_passes_or_stops (check : ρ → Except ε Unit) (rows : List ρ) :
    (∀ row ∈ rows, check row = .ok ()) ∨
      ∃ before row behind e, rows = before ++ row :: behind ∧
        (∀ r ∈ before, check r = .ok ()) ∧ check row = .error e := by
  induction rows with
  | nil => exact .inl (List.forall_mem_nil _)
  | cons row rows ih =>
    cases hrow : check row with
    | error e => exact .inr ⟨[], row, rows, e, rfl, List.forall_mem_nil _, hrow⟩
    | ok u =>
      rcases ih with hall | ⟨before, stop, behind, e, rfl, hbefore, hstop⟩
      · exact .inl (List.forall_mem_cons.mpr ⟨hrow, hall⟩)
      · exact .inr ⟨row :: before, stop, behind, e, rfl,
          List.forall_mem_cons.mpr ⟨hrow, hbefore⟩, hstop⟩

/-- Where all rows pass, checking changes nothing. -/
theorem checked_of_forall_passes {x : Traced ρ ε α} (h : ∀ row ∈ x.log, check row = .ok ()) :
    x.checked check = x := by
  rw [checked, forM_of_forall_passes h]
  simp

/-- A checked computation is the computation, or it stops at the first row that does not pass. -/
theorem checked_cases (check : ρ → Except ε Unit) (x : Traced ρ ε α) :
    (∀ row ∈ x.log, check row = .ok ()) ∧ x.checked check = x ∨
      ∃ before row behind e, x.log = before ++ row :: behind ∧
        (∀ r ∈ before, check r = .ok ()) ∧ check row = .error e ∧
        x.checked check = ⟨before ++ [row], .error e⟩ := by
  rcases forall_passes_or_stops check x.log with h | ⟨before, row, behind, e, hlog, hbefore, hrow⟩
  · exact .inl ⟨h, checked_of_forall_passes h⟩
  · refine .inr ⟨before, row, behind, e, hlog, hbefore, hrow, ?_⟩
    rw [checked, hlog, forM_of_stops hbefore hrow, error_bind]

/-- Checking a computation is checking its parts as they are reached. -/
theorem checked_bind (x : Traced ρ ε α) (f : α → Traced ρ ε β) :
    (x >>= f).checked check = x.checked check >>= fun a => (f a).checked check := by
  obtain ⟨log, outcome⟩ := x
  cases outcome with
  | error e =>
    simp only [checked, bind_assoc, error_bind]
    rfl
  | ok a => simp [checked, bind_assoc, bind_def (ofExcept _), List.forM_append]

/-- A fault of a checked computation is a fault of the computation or stops one of its rows. -/
lemma error_of_checked {x : Traced ρ ε α} {e : ε} (h : (x.checked check).outcome = .error e) :
    (∃ row ∈ x.log, check row = .error e) ∨ x.outcome = .error e := by
  rcases checked_cases check x with ⟨-, hx⟩ | ⟨before, row, behind, d, hlog, -, hrow, hx⟩
  · exact .inr (hx ▸ h)
  · rw [hx] at h
    obtain rfl : d = e := Except.error.inj h
    exact .inl ⟨row, hlog ▸ by simp, hrow⟩

/-- A checked computation succeeds where the computation does and all rows pass. -/
lemma outcome_checked_eq_ok {x : Traced ρ ε α} {a : α} :
    (x.checked check).outcome = .ok a ↔
      (∀ row ∈ x.log, check row = .ok ()) ∧ x.outcome = .ok a := by
  rcases checked_cases check x with ⟨hall, hx⟩ | ⟨before, row, behind, d, hlog, -, hrow, hx⟩
  · rw [hx]
    exact ⟨fun h => ⟨hall, h⟩, fun h => h.2⟩
  · rw [hx]
    refine ⟨nofun, fun h => ?_⟩
    have hpasses := h.1 row (hlog ▸ by simp)
    cases hrow.symm.trans hpasses

/-- What a checked computation meets has the properties of what the computation meets. -/
lemma Ends.checked {P : ε → Prop} {Q : α → Prop} {x : Traced ρ ε α}
    (hx : x.Ends (fun row => ∀ e, check row = .error e → P e) P Q) :
    ∀ e, (x.checked check).outcome = .error e → P e := by
  intro e he
  rcases error_of_checked he with ⟨row, hrow, hstop⟩ | he
  · exact hx.log row hrow e hstop
  · exact hx.error e he

end

/-! ## Results -/

/-- If a computation succeeds, its result has a property. -/
def Ensures (P : α → Prop) (x : Traced ρ ε α) : Prop :=
  ∀ a, x.outcome = .ok a → P a

section

variable {P : α → Prop} {Q : β → Prop} {x : Traced ρ ε α}

/-- A result ensures whatever it has. -/
lemma ensures_pure {a : α} (h : P a) : (pure a : Traced ρ ε α).Ensures P := by
  intro b hb
  obtain rfl : a = b := Except.ok.inj hb
  exact h

/-- A failure ensures anything. -/
lemma ensures_fail (e : ε) : (fail e : Traced ρ ε α).Ensures P :=
  nofun

/-- What holds of all results holds of those of a computation. -/
lemma ensures_of_forall (h : ∀ a, P a) : x.Ensures P :=
  fun a _ => h a

/-- Two computations in turn ensure what the second ensures behind results of the first. -/
lemma Ensures.bind {f : α → Traced ρ ε β} (hx : x.Ensures P) (hf : ∀ a, P a → (f a).Ensures Q) :
    (x >>= f).Ensures Q := by
  intro b hb
  obtain ⟨a, ha, hfa⟩ := (outcome_bind_eq_ok x f b).mp hb
  exact hf a (hx a ha) b hfa

/-- A changed result ensures what follows from the property of the result. -/
lemma Ensures.map {f : α → β} (hx : x.Ensures P) (hf : ∀ a, P a → Q (f a)) :
    (f <$> x).Ensures Q := by
  rw [← bind_pure_comp]
  exact hx.bind fun a ha => ensures_pure (hf a ha)

/-- A property of all results of what comes behind a computation. -/
lemma ensures_bind {f : α → Traced ρ ε β} (hf : ∀ a, (f a).Ensures Q) : (x >>= f).Ensures Q :=
  (ensures_of_forall fun _ => trivial : x.Ensures fun _ => True).bind fun a _ => hf a

/-- Computations are equal if they start alike and go on alike from all results that they can come
to. -/
lemma Ensures.bind_congr {f g : α → Traced ρ ε β} (hx : x.Ensures P)
    (h : ∀ a, P a → f a = g a) : x >>= f = x >>= g := by
  obtain ⟨log, outcome⟩ := x
  cases outcome with
  | error e => rfl
  | ok a => rw [ok_bind, ok_bind, h a (hx a rfl)]

end

/-! ## Computations that agree -/

/-- Two computations fail alike, or both succeed and their results are related. -/
def Agree (R : α → β → Prop) (x : Traced ρ ε α) (y : Traced ρ ε β) : Prop :=
  (∃ e, x.outcome = .error e ∧ y.outcome = .error e) ∨
    ∃ a b, x.outcome = .ok a ∧ y.outcome = .ok b ∧ R a b

variable {R : α → β → Prop} {S : γ → δ → Prop}

/-- Results that are related agree. -/
lemma agree_pure {a : α} {b : β} (h : R a b) :
    Agree R (pure a : Traced ρ ε α) (pure b) :=
  .inr ⟨a, b, rfl, rfl, h⟩

/-- The same failure agrees with itself. -/
lemma agree_fail (e : ε) : Agree R (fail e : Traced ρ ε α) (fail e) :=
  .inl ⟨e, rfl, rfl⟩

/-- One and the same computation agrees with itself, if its results are related to themselves. -/
lemma agree_self {R : α → α → Prop} {x : Traced ρ ε α} (h : ∀ a, x.outcome = .ok a → R a a) :
    Agree R x x := by
  cases hx : x.outcome with
  | error e => exact .inl ⟨e, hx, hx⟩
  | ok a => exact .inr ⟨a, a, hx, hx, h a hx⟩

/-- Computations that agree, with such behind them that agree on related results, agree. -/
lemma Agree.bind {x : Traced ρ ε α} {y : Traced ρ ε β} {f : α → Traced ρ ε γ}
    {g : β → Traced ρ ε δ} (h : Agree R x y) (hf : ∀ a b, R a b → Agree S (f a) (g b)) :
    Agree S (x >>= f) (y >>= g) := by
  rcases h with ⟨e, hx, hy⟩ | ⟨a, b, hx, hy, hab⟩
  · exact .inl ⟨e, outcome_bind_of_error hx, outcome_bind_of_error hy⟩
  · rcases hf a b hab with ⟨e, hfa, hgb⟩ | ⟨c, d, hfa, hgb, hcd⟩
    · exact .inl ⟨e, outcome_bind_of_ok_of_error hx hfa, outcome_bind_of_ok_of_error hy hgb⟩
    · exact .inr ⟨c, d, outcome_bind_of_ok hx hfa, outcome_bind_of_ok hy hgb, hcd⟩

/-- Computations that agree still do when their results are changed to related ones. -/
lemma Agree.map {x : Traced ρ ε α} {y : Traced ρ ε β} {f : α → γ} {g : β → δ}
    (h : Agree R x y) (hf : ∀ a b, R a b → S (f a) (g b)) : Agree S (f <$> x) (g <$> y) := by
  rw [← bind_pure_comp, ← bind_pure_comp]
  exact h.bind fun a b hab => agree_pure (hf a b hab)

/-- Both computations start with the same one. -/
lemma agree_bind {x : Traced ρ ε α} {f : α → Traced ρ ε γ} {g : α → Traced ρ ε δ}
    (hf : ∀ a, x.outcome = .ok a → Agree S (f a) (g a)) : Agree S (x >>= f) (x >>= g) := by
  have hx : Agree (fun a b => x.outcome = .ok a ∧ a = b) x x := agree_self fun a ha => ⟨ha, rfl⟩
  refine hx.bind ?_
  rintro a b ⟨ha, rfl⟩
  exact hf a ha

/-! ## Computations side by side -/

/-- Two computations come to the same outcome, and their records are related. -/
structure Related {σ : Type} (R : List ρ → List σ → Prop) (x : Traced ρ ε α)
    (y : Traced σ ε α) : Prop where
  outcome_eq : x.outcome = y.outcome
  log : R x.log y.log

/-- If records stay related when they are put together, so do computations. -/
lemma Related.bind {σ : Type} {R : List ρ → List σ → Prop} {x : Traced ρ ε α} {y : Traced σ ε α}
    {f : α → Traced ρ ε β} {g : α → Traced σ ε β}
    (happend : ∀ {a b c d}, R a b → R c d → R (a ++ c) (b ++ d)) (h : x.Related R y)
    (hf : ∀ a, (f a).Related R (g a)) : (x >>= f).Related R (y >>= g) := by
  obtain ⟨first, outcome⟩ := x
  obtain ⟨second, outcome'⟩ := y
  obtain ⟨houtcome, hlog⟩ := h
  obtain rfl : outcome = outcome' := houtcome
  cases outcome with
  | error e => exact ⟨rfl, hlog⟩
  | ok a => exact ⟨(hf a).outcome_eq, happend hlog (hf a).log⟩

end GlimmerFormat.Traced
