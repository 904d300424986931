import GlimmerFormat.Proofs.Format.Limits
import GlimmerFormat.Tree.OfJson

/-!
# Faults of formatting

Formatting a tree, however ill-typed, fails only for a cause that stands in the tree, or because the
tab width is too large for a machine integer.  No rule asks a node for a field that it does not
have, and every kind of node has a rule: what is without one is never a node.

* `Node.isMetIn_of_toDocumentChecked`, `Node.isMetIn_of_layout`: what stops printing and what stops
  laying out what is printed.
* `Node.formatChecked_faults`: printing is what its rules say on a walk, and these are the faults of
  formatting.
-/

namespace GlimmerFormat

/-- The types of values that are neither nothing nor a node. -/
lemma Value.typeName_mem {v : Value} (hnull : v ≠ .null) (hnode : ∀ m, v ≠ .node m) :
    v.typeName ∈ ["str", "int", "bool", "float", "list", "dict"] := by
  cases v with
  | null => exact absurd rfl hnull
  | node n => exact absurd rfl (hnode n)
  | _ => simp [typeName]

/-- No kind of node has the name of another type. -/
lemma Kind.name_not_mem (k : Kind) :
    k.name ∉ ["str", "int", "bool", "float", "list", "dict"] := by
  cases k <;> decide

namespace Node

/-- Without the limits of the tab width, formatting fails at what is in the tree. -/
lemma isMetIn_of_toDocumentChecked {s : Settings} {n : Node} {e : Fault}
    (h : (n.toDocumentChecked s).outcome = .error e) : e.IsMetIn n :=
  (n.meets_toDocument s).checked e h

/-- What stops the layout of a printed tree is a stray in it. -/
lemma isMetIn_of_layout {s : Settings} {n : Node} {d : Document}
    (hd : (n.toDocument s).outcome = .ok d) {page : Page} {e : Fault}
    (h : d.layout page = .error e) : e.IsMetIn n := by
  have hfirst := (Document.layout_eq_error_iff page (isSteady_of_toDocument hd)).mp h
  exact (n.meets_toDocument s).ok d hd e (List.mem_of_mem_head? hfirst)

/-- A tree is printed by the rules for a walk: whatever follows them at every position prints there
what printing does.  If formatting a tree fails, be it loaded or not and however ill-typed, the tab
width is too large for a machine integer, or the cause stands in the tree.  Never is it a field that
a node lacks, nor a setting; and a value without a rule is neither nothing nor a node, so the type
that the fault tells is the name of no kind. -/
theorem formatChecked_faults (s : Settings) (n : Node) :
    (∀ print : Position → Logged Part,
      (∀ p : Position, print p = p.printHere s.style print) ↔
        ∀ p : Position, print p = p.value.print s.style p.depth) ∧
      ∀ e, (n.formatChecked s).outcome = .error e →
        (∃ kind : MachineInt, e = .overflow kind ∧ ¬ kind.Holds s.tabWidth) ∨
        e.IsMetIn n ∧ ∀ kind, e = .unsupportedKind kind →
          kind ∈ ["str", "int", "bool", "float", "list", "dict"] ∧ ∀ k : Kind, kind ≠ k.name := by
  refine ⟨fun print => Position.forall_printHere_iff, fun e he => ?_⟩
  -- What is not printed is not laid out, so printing fails first.
  have hcause : (∃ kind : MachineInt, e = .overflow kind ∧ ¬ kind.Holds s.tabWidth) ∨
      e.IsMetIn n := by
    cases hd : (n.toDocumentChecked s).outcome with
    | error f =>
      obtain rfl : f = e := Except.error.inj ((outcome_formatChecked_of_error hd).symm.trans he)
      exact .inr (isMetIn_of_toDocumentChecked hd)
    | ok d =>
      rcases outcome_formatChecked_cases hd with hlayout | ⟨kind, htab, hoverflow⟩
      · exact .inr (isMetIn_of_layout (Traced.outcome_checked_eq_ok.mp hd).2
          (hlayout.symm.trans he))
      · exact .inl ⟨kind, Except.error.inj (he.symm.trans hoverflow), htab⟩
  refine hcause.imp_right fun hmet => ⟨hmet, ?_⟩
  rintro kind rfl
  obtain ⟨m, v, -, -, hnull, hnode, rfl⟩ := hmet
  have hmem := Value.typeName_mem hnull hnode
  refine ⟨hmem, ?_⟩
  intro k hk
  exact k.name_not_mem (hk ▸ hmem)

/-- A program whose only statement is no node, but a text. -/
def strayStatement : Node :=
  .program (.list [.str "x"]) .null

/-- The program is loaded, but not formatted. -/
theorem formatChecked_faults_sample :
    ofJson? (.object [("type", .str "Program"), ("body", .list [.str "x"]),
        ("blockParams", .null)]) = .ok strayStatement ∧
      (strayStatement.formatChecked {}).outcome = .error (.unsupportedKind "str") ∧
      (Fault.unsupportedKind "str").IsMetIn strayStatement ∧ ∀ k : Kind, "str" ≠ k.name := by
  have hfails : (strayStatement.formatChecked {}).outcome = .error (.unsupportedKind "str") := by
    decide
  rcases (formatChecked_faults {} strayStatement).2 _ hfails with ⟨kind, hkind, -⟩ | ⟨hmet, hkind⟩
  · cases hkind
  · exact ⟨by rfl, hfails, hmet, (hkind "str" rfl).2⟩

/-- A text and an element without children behind it. -/
def textAndElement : Json :=
  .object [("type", .str "Program"),
    ("body", .list [.object [("type", .str "TextNode"), ("chars", .str "x")],
      .object [("type", .str "ElementNode"), ("tag", .str "hr"), ("attributes", .list []),
        ("modifiers", .list []), ("children", .list []), ("blockParams", .list [])]]),
    ("blockParams", .list [])]

/-- The tree is loaded, and nothing that is in it stops formatting, but the tab width does. -/
theorem formatChecked_overflow :
    ∃ n, ofJson? textAndElement = .ok n ∧
      (n.formatChecked { tabWidth := 2, useTabs := true }).outcome = .ok "x\n<hr />" ∧
      (n.formatChecked { tabWidth := 2147483648, useTabs := true }).outcome =
        .error (.overflow .int32) ∧
      ¬ (Fault.overflow .int32).IsMetIn n := by
  refine ⟨_, rfl, by decide +kernel, by decide +kernel, id⟩

end Node

end GlimmerFormat
