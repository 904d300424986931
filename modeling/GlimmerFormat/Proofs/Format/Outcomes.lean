import GlimmerFormat.Format
import GlimmerFormat.Proofs.Layout.Ink
import GlimmerFormat.Proofs.Layout.Sequence
import GlimmerFormat.Proofs.Printing.Markup
import GlimmerFormat.Proofs.Printing.Regular
import GlimmerFormat.Proofs.Printing.Restyled

/-!
# What becomes of formatting

Formatting prints a tree as a document and lays the document out.  Of the settings, printing reads
the quote style alone and the layout all others.

A tree may fail to be printed, or hold something that is no document.  A well-typed tree does
neither, so it is formatted, on whatever page.

* `Node.outcome_format_of_ok`, `Node.outcome_format_of_error`: formatting is printing and then
  laying out.
* `Node.agree_toDocument`: in the two quote styles a tree is printed alike.
* `Node.isSteady_of_toDocument`: whatever a tree is printed as is steady.
* `Node.exists_format`: a well-typed tree is formatted without a fault.
-/

namespace GlimmerFormat

open Document (Restyled)
open Traced (Agree)

namespace Node

/-- A tree that is printed as a document is formatted as the layout of the document. -/
lemma outcome_format_of_ok {s : Settings} {n : Node} {d : Document}
    (h : (n.toDocument s).outcome = .ok d) : (n.format s).outcome = d.layout s.page := by
  rw [format, Traced.outcome_bind, h]
  rfl

/-- A tree that is not printed is not formatted. -/
lemma outcome_format_of_error {s : Settings} {n : Node} {e : Fault}
    (h : (n.toDocument s).outcome = .error e) : (n.format s).outcome = .error e :=
  Traced.outcome_bind_of_error h

/-- A whole tree is printed in the two quote styles alike, with its literals. -/
lemma agree_toDocument (s : Settings) (n : Node) :
    Agree (Restyled n.literals) (n.toDocument { s with singleQuote := true })
      (n.toDocument { s with singleQuote := false }) := by
  have hprinted : (Value.node n).PrintsAlike := by
    refine Value.printsAlike_of_nodes ?_
    intro m _
    exact m.agree_print
  refine (hprinted 0).bind ?_
  intro p q hpq
  exact Traced.agree_pure (Document.AreRestyled.singleton hpq).ofList

/-- Whatever a tree is printed as, its layouts differ in blanks alone. -/
lemma isSteady_of_toDocument {s : Settings} {n : Node} {d : Document}
    (h : (n.toDocument s).outcome = .ok d) : d.IsSteady := by
  obtain ⟨single, width, tab, tabs⟩ := s
  rcases n.agree_toDocument ⟨single, width, tab, tabs⟩ with ⟨e, hx, hy⟩ | ⟨a, b, hx, hy, hab⟩
  · cases single with
    | true => exact nomatch hx.symm.trans h
    | false => exact nomatch hy.symm.trans h
  · cases single with
    | true =>
      obtain rfl : a = d := Except.ok.inj (hx.symm.trans h)
      exact hab.isSteady.1
    | false =>
      obtain rfl : b = d := Except.ok.inj (hy.symm.trans h)
      exact hab.isSteady.2

/-- A well-typed tree is printed as its markup. -/
lemma outcome_toDocument {s : Settings} {n : Node} (hn : n.WellTyped) :
    (n.toDocument s).outcome = .ok (.ofList [(n.markup s.style).document]) := by
  have hmarkup : n.PrintsMarkup s.style := outcome_print hn
  exact Traced.outcome_bind_of_ok (hmarkup.outcome_value 0) rfl

/-- A well-typed tree is formatted as its markup is laid out. -/
lemma outcome_format_eq_layout {s : Settings} {n : Node} (hn : n.WellTyped) :
    (n.format s).outcome = (n.markup s.style).document.layout s.page := by
  rw [outcome_format_of_ok (outcome_toDocument hn), Document.layout_ofList_singleton]

/-- Nothing in the document of a well-typed tree is a stray. -/
lemma isProper_toDocument {s : Settings} {n : Node} (hn : n.WellTyped) {d : Document}
    (h : (n.toDocument s).outcome = .ok d) : d.IsProper := by
  have hregular : n.PrintsRegular s.style := yields_print hn
  have hdocument : (n.toDocument s).Yields fun d => d.IsRegular (n.kind == .program) := by
    refine (hregular.yields_value 0).bind ?_
    intro p hp
    exact Traced.yields_pure (by simpa using hp)
  obtain ⟨e, he, hproper⟩ := hdocument
  obtain rfl : e = d := Except.ok.inj (he.symm.trans h)
  exact hproper.isProper

/-! ## A sample -/

/-- A callee of one part. -/
def calleeNamed (name : String) : Node :=
  .path (.str name) (.list ([name].map .str))

/-- No parameters by name. -/
def noNames : Node :=
  .hash (.list ([].map .node))

/-- The inverse of the sample: a call whose value is inserted as it is. -/
def sampleInverse : Node :=
  .program (.list ([.mustache (.node (calleeNamed "name")) (.list ([].map .node)) (.node noNames)
    (.bool false)].map .node)) (.list ([].map .str))

/-- A block with an inverse, whose parameters are a literal and what is not a number. -/
def sampleBlock : Node :=
  .block (.node (calleeNamed "if"))
    (.list ([.string (.str "a b"), .number (.float ⟨0x7ff8000000000000⟩)].map .node))
    (.node noNames)
    (.node (.program (.list ([.text (.str " some  words ")].map .node))
      (.list (["item"].map .str))))
    ((some sampleInverse).elim .null .node)

/-- An element without an end tag. -/
def sampleElement : Node :=
  .element (.str "br") (.list ([.attr (.str "class") (.node (.text (.str "x y")))].map .node))
    (.list ([].map .node)) (.list ([].map .node)) (.list ([].map .str))

/-- A template with a block and an element. -/
def sample : Node :=
  .program (.list ([sampleBlock, sampleElement].map .node)) (.list ([].map .str))

/-- The absence of parameters by name is well-typed. -/
lemma wellTyped_noNames : noNames.WellTyped :=
  .hash (by simp) (by simp)

/-- The inverse of the sample is well-typed. -/
lemma wellTyped_sampleInverse : sampleInverse.WellTyped := by
  have hmustache : (Node.mustache (.node (calleeNamed "name")) (.list ([].map .node))
      (.node noNames) (.bool false)).WellTyped :=
    .mustache ⟨rfl, by simp, rfl⟩ (.path _ _) (by simp) wellTyped_noNames false
  exact .program (by simp [kind, Kind.isStatement]) (by simpa using hmustache) []

/-- The block of the sample is well-typed. -/
lemma wellTyped_sampleBlock : sampleBlock.WellTyped := by
  have hcontent : (Node.program (.list ([.text (.str " some  words ")].map .node))
      (.list (["item"].map .str))).WellTyped :=
    .program (by simp [kind, Kind.isStatement]) (by simpa using .text _) ["item"]
  refine .block ⟨rfl, by simp [kind, Kind.isExpression], rfl⟩ (.path _ _) ?_ wellTyped_noNames rfl
    hcontent (by simp [sampleInverse, kind]) (by simpa using wellTyped_sampleInverse)
  simpa using ⟨.string _, .number rfl⟩

/-- The element of the sample is well-typed. -/
lemma wellTyped_sampleElement : sampleElement.WellTyped :=
  .element "br" (by simp [kind]) (by simpa using .attr "class" rfl (.text _)) (by simp) (by simp)
    (by simp) (by simp) []

/-- The sample is well-typed, as its block and its element are. -/
lemma wellTyped_sample : sample.WellTyped :=
  .program (by simp [sampleBlock, sampleElement, kind, Kind.isStatement])
    (by simpa using ⟨wellTyped_sampleBlock, wellTyped_sampleElement⟩) []

/-! ## Totality -/

/-- A well-typed tree has a text. -/
lemma exists_format (s : Settings) {n : Node} (hn : n.WellTyped) :
    ∃ text, (n.format s).outcome = .ok text := by
  have hd := outcome_toDocument (s := s) hn
  obtain ⟨text, htext⟩ := Document.exists_layout s.page (isProper_toDocument hn hd)
  exact ⟨text, (outcome_format_of_ok hd).trans htext⟩

end Node

end GlimmerFormat
