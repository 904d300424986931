import GlimmerFormat.Printing.Node
import GlimmerFormat.Proofs.Tree.WellTyped

/-!
# Outcomes of printing

Printing goes on from one computation to the next, and a fault anywhere stops it.
`Traced.Yields x p` says that a computation succeeds with a value that has a property; such
statements are put together along the steps of a rule, by `Traced.Yields.bind` and its like.

The second half says what the readings of a well-typed tree yield: printing asks of a field only
what a field of its declared type can answer.

* `Value.dotted_map_str`, `Value.exists_quotedLiteral`: paths and string literals.
* `Value.exists_isBlankNode`, `Value.exists_anyPresent`: blank text among statements.
* `Value.exists_selfCloses`: only an element without children closes itself.
-/

namespace GlimmerFormat

namespace Traced

variable {ρ ε α β : Type} {x : Traced ρ ε α} {p : α → Prop} {q : β → Prop}

/-! ## Computations that succeed -/

/-- A computation succeeds, and its value has a property. -/
def Yields (x : Traced ρ ε α) (p : α → Prop) : Prop :=
  ∃ a, x.outcome = .ok a ∧ p a

/-- A result yields whatever it has. -/
lemma yields_pure {a : α} (h : p a) : (pure a : Traced ρ ε α).Yields p :=
  ⟨a, rfl, h⟩

/-- A success that leaves no record yields whatever its result has. -/
lemma yields_ofExcept {e : Except ε α} {a : α} (he : e = .ok a) (h : p a) :
    (ofExcept e : Traced ρ ε α).Yields p :=
  ⟨a, he, h⟩

/-- A computation that goes on from a value with a property. -/
lemma Yields.bind {f : α → Traced ρ ε β} (hx : x.Yields p) (hf : ∀ a, p a → (f a).Yields q) :
    (x >>= f).Yields q := by
  obtain ⟨a, ha, hp⟩ := hx
  obtain ⟨b, hb, hq⟩ := hf a hp
  exact ⟨b, (outcome_bind_eq_ok x f b).mpr ⟨a, ha, hb⟩, hq⟩

/-- A computation whose value is changed behind it. -/
lemma Yields.map {f : α → β} (hx : x.Yields p) (hf : ∀ a, p a → q (f a)) :
    (f <$> x).Yields q := by
  rw [← bind_pure_comp]
  refine hx.bind ?_
  intro a ha
  exact yields_pure (hf a ha)

/-- A value that is known is read out. -/
lemma yields_ofExcept_bind {e : Except ε α} {a : α} {f : α → Traced ρ ε β} (he : e = .ok a)
    (h : (f a).Yields q) : (ofExcept e >>= f).Yields q := by
  have hread : (ofExcept e : Traced ρ ε α).Yields (· = a) := yields_ofExcept he rfl
  refine hread.bind ?_
  rintro b rfl
  exact h

/-- What is noted changes nothing. -/
lemma yields_note_bind {row : ρ} {y : Traced ρ ε β} (h : y.Yields q) :
    (note row >>= fun _ => y).Yields q := by
  have hnote : (note row : Traced ρ ε Unit).Yields fun _ => True := ⟨(), rfl, trivial⟩
  refine hnote.bind ?_
  intro _ _
  exact h

end Traced

/-- What is printed only where there is something to print. -/
lemma Logged.yields_ifAny {count : Except Fault Nat} {printed : Logged Document} {k : Nat}
    {p : Document → Prop} (hcount : count = .ok k) (hempty : p .empty)
    (hprinted : printed.Yields p) : (Logged.ifAny count printed).Yields p := by
  refine Traced.yields_ofExcept_bind hcount ?_
  split
  · exact hprinted
  · exact Traced.yields_pure hempty

/-! ## Readings of well-typed trees -/

namespace Value

/-- Texts are read as the parts of a path, from whatever index on. -/
lemma partTexts_map_str (parts : List String) (index : Nat) :
    partTexts index (parts.map .str) = .ok parts := by
  induction parts generalizing index with
  | nil => rfl
  | cons part parts ih =>
    rw [List.map_cons, partTexts, ih]
    rfl

/-- A path is printed with points between its parts. -/
lemma dotted_map_str (parts : List String) :
    (Value.list (parts.map .str)).dotted = .ok (".".intercalate parts) := by
  have helements : (Value.list (parts.map .str)).elements? = some (parts.map .str) := rfl
  rw [dotted, helements]
  simp only [partTexts_map_str]
  rfl

/-- A literal stands between quotes, or as it is if it holds a quote. -/
lemma exists_quotedLiteral (quote s : String) :
    ∃ t, (Value.str s).quotedLiteral quote = .ok (.str t) := by
  cases h : s.toList.any containsQuote.isQuote with
  | true =>
    refine ⟨s, ?_⟩
    simp [quotedLiteral, containsQuote, h, bind, Except.bind, pure, Except.pure]
  | false =>
    refine ⟨quote ++ s ++ quote, ?_⟩
    simp [quotedLiteral, containsQuote, h, text, text?, bind, Except.bind, pure, Except.pure]

/-- Whatever stands in a literal, it is printed as a text or stands there as what is no document. -/
lemma quotedLiteral_cases {quote : String} {v : Value} {part : Part}
    (h : v.quotedLiteral quote = .ok part) :
    (∃ s, part = .str s) ∨ part = .doc (.stray v.strayFault) := by
  unfold quotedLiteral at h
  cases hquoted : v.containsQuote with
  | error e => rw [hquoted] at h; cases h
  | ok quoted =>
    rw [hquoted] at h
    cases quoted with
    | true =>
      cases v with
      | str s => exact .inl ⟨s, (Except.ok.inj h).symm⟩
      | _ => exact .inr (Except.ok.inj h).symm
    | false =>
      cases htext : v.text .quotable with
      | error e => rw [htext] at h; cases h
      | ok s => rw [htext] at h; exact .inl ⟨_, (Except.ok.inj h).symm⟩

/-- Whether a well-typed node is blank text can be told. -/
lemma exists_isBlankNode {n : Node} (h : n.WellTyped) :
    ∃ b, (Value.node n).isBlankNode = .ok b := by
  cases h with
  | text chars => exact ⟨_, rfl⟩
  | _ => exact ⟨false, rfl⟩

/-- Whether some well-typed node is not blank text can be told. -/
lemma exists_anyPresent {ns : List Node} (h : ∀ n ∈ ns, n.WellTyped) :
    ∃ b, anyPresent (ns.map .node) = .ok b := by
  induction ns with
  | nil => exact ⟨false, rfl⟩
  | cons n ns ih =>
    obtain ⟨blank, hblank⟩ := exists_isBlankNode (h n (by simp))
    obtain ⟨b, hb⟩ := ih fun m hm => h m (by simp [hm])
    cases blank with
    | true =>
      refine ⟨b, ?_⟩
      simp [anyPresent, hblank, hb, bind, Except.bind]
    | false =>
      refine ⟨true, ?_⟩
      simp [anyPresent, hblank, bind, Except.bind, pure, Except.pure]

/-- Only an element without children closes itself. -/
lemma exists_selfCloses (tag : String) (children : List Value) :
    ∃ b, (Value.str tag).selfCloses (.list children) = .ok b ∧ (b = true → children = []) := by
  by_cases htag : tag ∈ voidElements
  · refine ⟨children.length == 0, ?_, by simp⟩
    simp [selfCloses, tagName?, text?, count, length?, htag, bind, Except.bind, pure, Except.pure]
  · refine ⟨false, ?_, by simp⟩
    simp [selfCloses, tagName?, text?, htag, bind, Except.bind, pure, Except.pure]

end Value

end GlimmerFormat
