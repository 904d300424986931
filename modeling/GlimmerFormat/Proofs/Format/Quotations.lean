import GlimmerFormat.Proofs.Format.Content
import GlimmerFormat.Proofs.Printing.Quotations

/-!
# Quotations in formatted templates

Whatever is put between quotes stands in the text of a template as it is, with no blank of it
dropped and no break in a raw text.  So a string literal always reads back, since it is put between
quotes only if it holds none.  The text of an attribute and the raw texts of a concatenation are put
between double quotes without being looked at; they read back exactly if they hold no double quote.

* `Node.format_quotations`: the quotations of a tree in its text, and which of them read back.
* `Node.format_attribute_ends_early`: an attribute that does not read back.
-/

namespace GlimmerFormat

namespace Node

/-- What a tree is formatted as holds each quotation of the tree between its quotes, raw texts as
they are.  A quotation of raw texts is read back from behind its opening quote exactly if it closes,
that is if it is a string literal or holds no double quote. -/
theorem format_quotations (s : Settings) {n : Node} (hn : n.WellTyped) :
    ∃ text, (n.format s).outcome = .ok text ∧
      ∀ {m : Node} {q : Quotation}, m.Occurs n → m.quotation? s.style = some q →
        (q.Closes ↔ m.kind = .string ∨ ∀ raw : String, some raw ∈ q.parts → '"' ∉ raw.toList) ∧
        ∃ (first : String) (texts : List String) (last : String), q.IsFilledBy texts ∧
          text = first ++ String.singleton q.mark ++
            (String.join texts ++ String.singleton q.mark ++ last) ∧
          ∀ raws : List String, q.parts = raws.map some →
            (Text.upTo q.mark (String.join texts ++ String.singleton q.mark ++ last) =
              String.join raws ↔ q.Closes) := by
  obtain ⟨text, hformat⟩ := exists_format s hn
  refine ⟨text, hformat, ?_⟩
  intro m q hm hq
  refine ⟨closes_iff hq, ?_⟩
  -- Texts are not found as they are, since they are reflowed; but none is quoted by itself.
  have hkind : m.kind ≠ .text := by
    rcases quotation?_eq_some hq with ⟨s, rfl, -, -⟩ | ⟨hkind | hkind, -⟩
    · simp [kind]
    · simp [hkind]
    · simp [hkind]
  have hunit := s.ink_unit Text.coversSpacing_isBlank
  obtain ⟨d, hshows, hwritten⟩ := shows_quotation Text.isBlank s.page.unit (hn.of_occurs hm) hq
  have hlayout := (outcome_format_eq_layout hn).symm.trans hformat
  obtain ⟨indentation, mode, before, stretch, after, -, hstretch, htext⟩ :=
    Document.exists_stretch_of_layout hlayout
      ((shows_of_occurs Text.coversSpacing_isBlank hunit hn hm hkind).trans hshows)
  obtain ⟨first, texts, last, hfilled, hsplit⟩ :=
    Quotation.exists_of_isWrittenAs (isTrailing_mark hq) (hwritten hstretch) before after
  refine ⟨first, texts, last, hfilled, ?_, ?_⟩
  · rw [← hsplit, ← htext, String.ofList_toList]
  · intro raws hraws
    exact Quotation.upTo_raws_iff hraws hfilled last

/-- A literal and an attribute of the sample, with single quotes preferred. -/
theorem format_quotations_sample :
    ∃ text, (sample.format { singleQuote := true }).outcome = .ok text ∧
      (∃ first last : String, text = first ++ "'" ++ ("a b" ++ "'" ++ last) ∧
        Text.upTo '\'' ("a b" ++ "'" ++ last) = "a b") ∧
      ∃ first last : String, text = first ++ "\"" ++ ("x y" ++ "\"" ++ last) ∧
        Text.upTo '"' ("x y" ++ "\"" ++ last) = "x y" := by
  obtain ⟨text, htext, hall⟩ := format_quotations { singleQuote := true } wellTyped_sample
  have hread : ∀ {m : Node} {mark : Char} {raw : String}, m.Occurs sample →
      m.quotation? .single = some ⟨mark, [some raw]⟩ → mark ∉ raw.toList →
      ∃ first last : String,
        text = first ++ String.singleton mark ++ (raw ++ String.singleton mark ++ last) ∧
        Text.upTo mark (raw ++ String.singleton mark ++ last) = raw := by
    intro m mark raw hm hq hmark
    obtain ⟨-, first, texts, last, hfilled, hsplit, hback⟩ := hall hm hq
    obtain rfl : texts = [raw] := by
      cases hfilled with
      | cons hraw hnone =>
        cases hnone
        rw [hraw raw rfl]
    have hcloses : Quotation.Closes ⟨mark, [some raw]⟩ := by
      intro other hother
      obtain rfl : other = raw := by simpa using hother
      exact hmark
    have hjoin : String.join [raw] = raw := by simp [String.join_cons]
    rw [hjoin] at hsplit hback
    exact ⟨first, last, hsplit, by simpa [hjoin] using (hback [raw] rfl).mpr hcloses⟩
  have hliteral : (Node.string (.str "a b")).Occurs sample := by
    have hblock : (Node.string (.str "a b")).Occurs sampleBlock :=
      .inside (by simp [sampleBlock, children, fields, Value.nodes, Value.nodesAll]) (.here _)
    exact .in_body (by simp) hblock
  have hattr : (Node.attr (.str "class") (.node (.text (.str "x y")))).Occurs sample := by
    have helement : (Node.attr (.str "class") (.node (.text (.str "x y")))).Occurs sampleElement :=
      .in_attributes (by simp) (.here _)
    exact .in_body (by simp) helement
  have hsingle : String.singleton '\'' = "'" := rfl
  have hdouble : String.singleton '"' = "\"" := rfl
  have hliteralRead := @hread _ '\'' "a b" hliteral rfl (by decide)
  have hattrRead := @hread _ '"' "x y" hattr rfl (by decide)
  rw [hsingle] at hliteralRead
  rw [hdouble] at hattrRead
  exact ⟨text, htext, hliteralRead, hattrRead⟩

/-- An attribute whose text holds double quotes. -/
def quotedTitle : Node :=
  .attr (.str "title") (.node (.text (.str "say \"hi\"")))

/-- An element with this attribute. -/
def quotedElement : Node :=
  .element (.str "a") (.list ([quotedTitle].map .node)) (.list ([].map .node))
    (.list ([].map .node)) (.list ([].map .str))

/-- A template with nothing but this element. -/
def quotedTemplate : Node :=
  .program (.list ([quotedElement].map .node)) (.list ([].map .str))

/-- The text of the attribute ends at the first quote inside it, and reads back as another one. -/
theorem format_attribute_ends_early :
    quotedTemplate.WellTyped ∧ quotedTitle.Occurs quotedTemplate ∧
      quotedTitle.quotation? .double = some ⟨'"', [some "say \"hi\""]⟩ ∧
      ¬ Quotation.Closes ⟨'"', [some "say \"hi\""]⟩ ∧
      (quotedTemplate.format {}).outcome =
        .ok ("<a title=" ++ "\"" ++ ("say \"hi\"" ++ "\"" ++ "></a>")) ∧
      Text.upTo '"' ("say \"hi\"" ++ "\"" ++ "></a>") = "say " := by
  have helement : quotedElement.WellTyped :=
    .element "a" (by simp [quotedTitle, kind])
      (by simpa using .attr "title" rfl (.text _)) (by simp) (by simp) (by simp) (by simp) []
  have htitle : quotedTitle.Occurs quotedElement :=
    .in_attributes (by simp) (.here _)
  refine ⟨?_, ?_, rfl, ?_, rfl, by decide⟩
  · exact .program (by simp [quotedElement, kind, Kind.isStatement]) (by simpa using helement) []
  · exact .in_body (by simp) htitle
  · intro h
    exact absurd (h "say \"hi\"" (by simp)) (by decide)

end Node

end GlimmerFormat
