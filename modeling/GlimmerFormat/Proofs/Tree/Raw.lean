import GlimmerFormat.Proofs.Text.Lines
import GlimmerFormat.Proofs.Tree.WellTyped
import GlimmerFormat.Tree.Display

/-!
# The raw texts of a tree

Names, paths, literals and the texts of attributes are printed as they are.  Comments and the texts
among statements are not: their words are reflowed, so that a newline character in them is a blank
like any other.  The digits of a number are a raw text that holds no newline character.

* `Node.raws`: the texts of a tree that are printed as they are.
* `Node.IsPlain`: trees whose raw texts are on one line each.
* `Value.isOneLine_numberText`: numbers are written on one line.
-/

namespace GlimmerFormat

open Text (IsOneLine)

mutual

/-- The raw texts in a value. -/
def Value.raws : Value → List String
  | .str s => [s]
  | .list items => Value.rawsAll items
  | .node n => n.raws
  | _ => []

/-- The raw texts in several values. -/
def Value.rawsAll : List Value → List String
  | [] => []
  | v :: vs => v.raws ++ Value.rawsAll vs

/-- The raw texts in a list of statements. -/
def Value.statementRaws : Value → List String
  | .list items => Value.rawsAmong items
  | _ => []

/-- The raw texts in several statements.  A text among them is reflowed. -/
def Value.rawsAmong : List Value → List String
  | [] => []
  | .node (.text _) :: vs => Value.rawsAmong vs
  | v :: vs => v.raws ++ Value.rawsAmong vs

/-- The raw texts in a node. -/
def Node.raws : Node → List String
  | .path _ parts => parts.raws
  | .string value => value.raws
  | .pair key value => key.raws ++ value.raws
  | .hash pairs => pairs.raws
  | .subexpression callee params named | .mustache callee params named _
  | .modifier callee params named => callee.raws ++ params.raws ++ named.raws
  | .text chars => chars.raws
  | .concat parts => parts.raws
  | .attr name value => name.raws ++ value.raws
  | .program body names => names.raws ++ body.statementRaws
  | .block callee params named content inverse =>
    callee.raws ++ params.raws ++ named.raws ++ content.raws ++ inverse.raws
  | .element tag attributes modifiers children _ =>
    tag.raws ++ attributes.raws ++ modifiers.raws ++ children.statementRaws
  | .number _ | .boolean _ | .null | .comment _ => []

end

/-- A value whose raw texts hold no newline characters. -/
def Value.IsPlain (v : Value) : Prop :=
  ∀ s ∈ v.raws, IsOneLine s

/-- A tree whose raw texts hold no newline characters. -/
def Node.IsPlain (n : Node) : Prop :=
  ∀ s ∈ n.raws, IsOneLine s

instance (n : Node) : Decidable n.IsPlain :=
  inferInstanceAs (Decidable (∀ s ∈ n.raws, IsOneLine s))

namespace Value

/-- The raw texts in values in turn are those of each. -/
lemma rawsAll_eq_flatMap (vs : List Value) : rawsAll vs = vs.flatMap raws := by
  induction vs with
  | nil => rfl
  | cons v vs ih => rw [rawsAll, ih, List.flatMap_cons]

variable {q : String → Prop}

/-- Names are raw texts. -/
lemma forall_mem_raws_map_str {names : List String} :
    (∀ s ∈ (Value.list (names.map .str)).raws, q s) ↔ ∀ name ∈ names, q name := by
  simp [raws, rawsAll_eq_flatMap]

/-- A property holds of the raw texts in a list of nodes if it does in each node. -/
lemma forall_mem_raws_map_node {ns : List Node} :
    (∀ s ∈ (Value.list (ns.map .node)).raws, q s) ↔ ∀ n ∈ ns, ∀ s ∈ n.raws, q s := by
  simp only [raws, rawsAll_eq_flatMap, List.flatMap_map, List.mem_flatMap]
  exact ⟨fun h n hn s hs => h s ⟨n, hn, hs⟩, fun h s ⟨n, hn, hs⟩ => h n hn s hs⟩

/-- The raw texts among statements are those of the statements that are no texts. -/
lemma forall_mem_statementRaws {ns : List Node} :
    (∀ s ∈ (Value.list (ns.map .node)).statementRaws, q s) ↔
      ∀ n ∈ ns, n.kind ≠ .text → ∀ s ∈ n.raws, q s := by
  induction ns with
  | nil => simp [statementRaws, rawsAmong]
  | cons n ns ih =>
    rw [List.forall_mem_cons, ← ih]
    cases n <;> simp [statementRaws, rawsAmong, Node.kind, raws, or_imp, forall_and]

end Value

/-! ## Numbers -/

namespace Text

/-- The digits of a number are on one line. -/
lemma isOneLine_toString (n : Nat) : IsOneLine (toString n) := by
  intro hmem
  have hdigit : '\n'.isDigit = true :=
    Nat.isDigit_of_mem_toDigits (by decide) (Nat.le_refl 10) (by simpa using hmem)
  exact absurd hdigit (by decide)

end Text

namespace NumberStyle

/-- Zeros are on one line. -/
lemma isOneLine_zeros (n : Nat) : IsOneLine (zeros n) := by
  simp [zeros, IsOneLine]

/-- Digits on one line are so with all places written out. -/
lemma isOneLine_positional {digits : String} (h : IsOneLine digits) (exponent : Int) :
    IsOneLine (positional digits exponent) := by
  have htake : IsOneLine (String.ofList (digits.toList.take (exponent.toNat + 1))) :=
    Text.isOneLine_ofList.mpr fun hmem => h (List.mem_of_mem_take hmem)
  have hdrop : IsOneLine (String.ofList (digits.toList.drop (exponent.toNat + 1))) :=
    Text.isOneLine_ofList.mpr fun hmem => h (List.mem_of_mem_drop hmem)
  have hmarks : IsOneLine "0." ∧ IsOneLine "." ∧ IsOneLine ".0" := by decide
  simp only [positional]
  split
  · simp [hmarks, h, isOneLine_zeros]
  · split <;> simp [hmarks, h, htake, hdrop, isOneLine_zeros]

/-- Digits on one line are so with the power of ten behind them. -/
lemma isOneLine_scientific (style : NumberStyle) {digits : String} (h : IsOneLine digits)
    (exponent : Int) : IsOneLine (style.scientific digits exponent) := by
  have hmarks : IsOneLine "e" ∧ IsOneLine "." := by decide
  have hsign : IsOneLine (if exponent < 0 then "-" else "+") := by split <;> decide
  have hsize := Text.isOneLine_toString exponent.natAbs
  simp only [scientific, Text.isOneLine_append]
  refine ⟨⟨⟨⟨?_, hmarks.1⟩, hsign⟩, isOneLine_zeros _⟩, hsize⟩
  rw [IsOneLine] at h
  split
  · exact Text.isOneLine_empty
  · next hdigits => simpa [hdigits, IsOneLine] using h
  · next hdigits =>
    rw [hdigits] at h
    simpa [hmarks, IsOneLine] using h

/-- The text of a floating-point number is on one line, in every style. -/
lemma isOneLine_write (style : NumberStyle) (x : Binary64) : IsOneLine (style.write x) := by
  have hmarks : IsOneLine "nan" ∧ IsOneLine "inf" ∧ IsOneLine "0.0" := by decide
  have hsign : IsOneLine (if x.isNegative then "-" else "") := by split <;> decide
  have hdecimal : IsOneLine (style.decimal x.shortest) := by
    have hdigits := Text.isOneLine_toString x.shortest.coefficient
    simp only [decimal]
    split
    · exact isOneLine_positional hdigits _
    · exact isOneLine_scientific style hdigits _
  rw [write]
  split
  · exact hmarks.1
  · refine Text.isOneLine_append.mpr ⟨hsign, ?_⟩
    split
    · exact hmarks.2.1
    · split
      · exact hmarks.2.2
      · exact hdecimal

end NumberStyle

/-- A number is written on one line. -/
lemma Value.isOneLine_numberText {v : Value} (h : v.isNumber = true) : IsOneLine v.numberText := by
  cases v with
  | bool b => cases b <;> decide
  | int n =>
    have hminus : IsOneLine "-" := by decide
    cases n with
    | ofNat n => exact Text.isOneLine_toString n
    | negSucc n => exact Text.isOneLine_append.mpr ⟨hminus, Text.isOneLine_toString (n + 1)⟩
  | float x =>
    have hwritten := plainStyle.isOneLine_write x
    have hsign : ∀ b : Bool, IsOneLine (if b then "-" else "") := by decide
    rw [numberText]
    split
    · split
      · exact Text.isOneLine_append.mpr ⟨hsign _, Text.isOneLine_toString _⟩
      · exact hwritten
    · exact hwritten
  | _ => cases h

end GlimmerFormat
