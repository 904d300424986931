import GlimmerFormat.Proofs.Format.Outcomes
import GlimmerFormat.Proofs.Layout.Restyled

/-!
# Formatting in two quote styles

The preferred quote decides nothing but which of the two characters stands around the string
literals that hold no quotes themselves.  `Node.format_quotes_only` says so of every tree,
well-typed or not: the texts in the two styles are made of the same pieces, and differ exactly at
the quotes of the literals of the tree.
-/

namespace GlimmerFormat

open Traced (Agree)

/-- With single and with double quotes preferred, a tree fails to be formatted for the same fault,
or both its texts are made of the same pieces: of plain segments and, in order, of the literals of
the tree between quotes.  So they are of one length and differ exactly where these quotes stand. -/
theorem Node.format_quotes_only (s : Settings) (n : Node) :
    Agree (fun single double => ∃ pieces, Piece.literals pieces = n.literals ∧
        single = Piece.text .single pieces ∧ double = Piece.text .double pieces ∧
        DifferInQuotes (Piece.delimiters pieces) single.toList double.toList)
      (n.format { s with singleQuote := true }) (n.format { s with singleQuote := false }) := by
  rcases n.agree_toDocument s with ⟨e, hsingle, hdouble⟩ | ⟨d, e, hsingle, hdouble, hrestyled⟩
  · exact .inl ⟨e, outcome_format_of_error hsingle, outcome_format_of_error hdouble⟩
  · have hformat := outcome_format_of_ok hsingle
    have hformat' := outcome_format_of_ok hdouble
    -- The two pages are the same, since only the quotes are set apart.
    rcases hrestyled.layout s.page with ⟨fault, hd, he⟩ | ⟨pieces, hliterals, hd, he⟩
    · exact .inl ⟨fault, hformat.trans hd, hformat'.trans he⟩
    · exact .inr ⟨_, _, hformat.trans hd, hformat'.trans he, pieces, hliterals, rfl, rfl,
        Piece.differInQuotes_text pieces⟩

end GlimmerFormat
