import GlimmerFormat.Proofs.Format.Statements
import GlimmerFormat.Proofs.Printing.Blocks
import GlimmerFormat.Proofs.Printing.Kept
import GlimmerFormat.Proofs.Tree.Thinning

/-!
# Blocks part by part

The text of a block is made of the texts of its parts.  Its header is formatted as if nothing
followed it.  The statements of its body, and those of its inverse, are formatted as templates of
their own, on a page that is narrower by one level of indentation.  The mark of the inverse and the
end of the block stand on lines of their own, under the header.

* `Block`: a block in its parts.
* `Node.WellTyped.exists_block`: every well-typed block has them.
* `Node.format_block`: the text of a block from the texts of its parts.
-/

namespace GlimmerFormat

open Document (StandsBelow)

/-! ## Narrower pages -/

namespace Settings

/-- The settings with a page that is narrower by one level of indentation. -/
def narrowed (s : Settings) : Settings :=
  { s with printWidth := s.printWidth - s.tabWidth.toNat }

/-- The indentation of the settings is a tab, or as many spaces as a tab is wide. -/
lemma isUnit_unit (s : Settings) : Text.IsUnit s.page.tabWidth s.page.unit s.tabWidth.toNat := by
  cases htabs : s.useTabs with
  | true =>
    have hunit : s.page.unit = "\t" := s.unit_of_useTabs htabs
    rw [hunit]
    exact .tab
  | false =>
    have hunit : s.page.unit = String.ofList (List.replicate s.tabWidth.toNat ' ') := by
      simp [page, unit, htabs]
    rw [hunit]
    exact .spaces _

/-- The text of statements on the narrower page, with the indentation in front of each line that is
not empty. -/
def indentedText (s : Settings) (statements : List Node) : Except Fault String :=
  ((Node.programOf statements []).format s.narrowed).outcome.map (Text.indentedShown s.unit)

/-- What stands below the header of a block, or below its mark of an inverse, for statements: their
indented text, and nothing if there are none. -/
def bodyTexts (s : Settings) : List Node → Except Fault (List String)
  | [] => .ok []
  | statements => (s.indentedText statements).map ([·])

/-- What stands below the body of a block for its inverse: a mark and the texts of its statements,
and nothing if there is no inverse. -/
def inverseTexts (s : Settings) : Option (List Node × List String) → Except Fault (List String)
  | none => .ok []
  | some others => (s.bodyTexts others.1).map ("\x7b\x7belse\x7d\x7d" :: ·)

end Settings

/-! ## Blocks in their parts -/

/-- A block in its parts: the path that it calls and the parameters of the call, its statements with
the names that it gives to what it passes on to them, and its inverse, if it has one. -/
structure Block where
  whole : String
  path : List String
  params : List Node
  named : Node
  body : List Node
  names : List String
  inverse : Option (List Node × List String)

namespace Block

/-- What stands in the tree of a block for its inverse. -/
def inverseValue (b : Block) : Value :=
  (b.inverse.map fun others => Node.programOf others.1 others.2).elim .null .node

/-- The tree of a block. -/
def node (b : Block) : Node :=
  .block (.node (.path (.str b.whole) (.list (b.path.map .str)))) (.list (b.params.map .node))
    (.node b.named) (.node (.programOf b.body b.names)) b.inverseValue

/-- The block without statements and without an inverse. -/
def bare (b : Block) : Block :=
  { b with body := [], inverse := none }

/-- The end of a block, which names its path again. -/
def endTag (b : Block) : String :=
  "\x7b\x7b/" ++ ".".intercalate b.path ++ "\x7d\x7d"

/-- Whether something is shown of the body of a block, and of its inverse if this has statements. -/
structure IsShown (b : Block) : Prop where
  body : ∃ n ∈ b.body, n.isBlankText = false
  inverse : ∀ others ∈ b.inverse, others.1 = [] ∨ ∃ n ∈ others.1, n.isBlankText = false

end Block

/-- Every well-typed block has its parts. -/
lemma Node.WellTyped.exists_block {n : Node} (h : n.WellTyped) (hkind : n.kind = .block) :
    ∃ b : Block, n = b.node := by
  cases h with
  | @block callee named content params inverse hkinds hcallee hparams hnamed hcontentKind hcontent
      hinverseKind hinverse =>
    obtain ⟨whole, path, rfl⟩ := hcallee.exists_path hkinds.callee
    obtain ⟨body, names, rfl⟩ := hcontent.exists_program hcontentKind
    cases inverse with
    | none => exact ⟨⟨whole, path, params, named, body, names, none⟩, rfl⟩
    | some n =>
      obtain ⟨others, names', rfl⟩ := (hinverse n rfl).exists_program (hinverseKind n rfl)
      exact ⟨⟨whole, path, params, named, body, names, some (others, names')⟩, rfl⟩
  | _ => cases hkind

namespace Node

/-- Statements of which some are shown are printed as a document that ends firm. -/
lemma endsFirm_markup_programOf (style : Markup.QuoteStyle) {statements : List Node}
    {names : List String} (hwell : (programOf statements names).WellTyped)
    (hshown : ∃ n ∈ statements, n.isBlankText = false) (before : Bool) :
    ((programOf statements names).markup style).document.endsFirm before = true := by
  have hstatements := hwell.of_program.1
  have hmarkup : ((programOf statements names).markup style).document =
      .ofList (Value.markupBody style false (statements.map .node)) := rfl
  rw [hmarkup, Document.endsFirm_ofList]
  exact endFirm_markupBody (fun n hn => (hstatements n hn).wellTyped)
    (fun n hn => (hstatements n hn).kind) (shown_ne_nil_iff.mpr hshown) before false

/-- Statements of which some are shown stand below the header of a block as they are formatted on
the narrower page. -/
lemma exists_indentedText (s : Settings) {statements : List Node} {names : List String}
    (hwell : (programOf statements names).WellTyped) (hplain : (programOf statements names).IsPlain)
    (hshown : ∃ n ∈ statements, n.isBlankText = false) :
    ∃ text, s.indentedText statements = .ok text ∧
      StandsBelow s.page (bodyMarkup (.node (programOf statements names))
        ((Value.node (programOf statements names)).markup s.style)) [text] := by
  have halone := wellTyped_programOf hwell.of_program.1 []
  obtain ⟨text, htext⟩ := exists_format s.narrowed halone
  have hlayout : ((programOf statements names).markup s.style).document.layout
      (s.page.narrowed s.tabWidth.toNat) = .ok text :=
    (outcome_format_eq_layout halone).symm.trans htext
  have hbody : bodyMarkup (.node (programOf statements names))
      ((Value.node (programOf statements names)).markup s.style) =
      Markup.blockBody ((programOf statements names).markup s.style).document := by
    obtain ⟨n, hn, -⟩ := hshown
    obtain ⟨m, ms, rfl⟩ := List.exists_cons_of_ne_nil (List.ne_nil_of_mem hn)
    rfl
  refine ⟨Text.indentedShown s.unit text, ?_, ?_⟩
  · rw [Settings.indentedText, htext]
    rfl
  · rw [hbody]
    exact Document.standsBelow_blockBody s.isUnit_unit (isPlain_markup hwell hplain)
      (endsFirm_markup_programOf s.style hwell hshown) hlayout

/-- Where there are no statements nothing stands below the header. -/
lemma exists_bodyTexts (s : Settings) {statements : List Node} {names : List String}
    (hwell : (programOf statements names).WellTyped) (hplain : (programOf statements names).IsPlain)
    (hshown : statements = [] ∨ ∃ n ∈ statements, n.isBlankText = false) :
    ∃ texts, s.bodyTexts statements = .ok texts ∧
      StandsBelow s.page (bodyMarkup (.node (programOf statements names))
        ((Value.node (programOf statements names)).markup s.style)) texts := by
  cases statements with
  | nil => exact ⟨[], rfl, Document.standsBelow_empty s.page⟩
  | cons m ms =>
    obtain ⟨text, htext, hbelow⟩ :=
      exists_indentedText s hwell hplain (hshown.resolve_left (by simp))
    refine ⟨[text], ?_, hbelow⟩
    rw [Settings.bodyTexts, htext]
    · rfl
    · simp

end Node

namespace Block

open Node (programOf)

variable {b : Block}

/-! ## The markup of a block -/

/-- What a block is printed as up to its body. -/
def header (style : Markup.QuoteStyle) (b : Block) : Document :=
  Markup.blockHeader
    (callMarkup (.ofString (".".intercalate b.path)) (.list (b.params.map .node))
      ((Value.list (b.params.map .node)).markupItems style) (.node b.named)
      ((Value.node b.named).markup style))
    (Value.node (programOf b.body b.names)).markupNames

/-- The header of a block ends firm, in the brackets that close it. -/
lemma endsFirm_header (style : Markup.QuoteStyle) (b : Block) (before : Bool) :
    (b.header style).endsFirm before = true := by
  simp [header, Markup.blockHeader, Text.endsFirm, isTrailing]

/-- A block is printed as its header, its body, its inverse and an end that names it again. -/
lemma document_markup (style : Markup.QuoteStyle) (b : Block) :
    (b.node.markup style).document =
      Markup.block (b.header style)
        (bodyMarkup (.node (programOf b.body b.names))
          ((Value.node (programOf b.body b.names)).markup style))
        (inverseMarkup b.inverseValue (b.inverseValue.markup style))
        (.ofString (".".intercalate b.path)) := by
  have hcallee : (Value.node (.path (.str b.whole) (.list (b.path.map .str)))).markup style =
      .ofString (".".intercalate b.path) := by
    rw [Value.markup, Node.markup, Value.texts_map_str]
    rfl
  rw [node, Node.markup, hcallee]
  rfl

/-! ## The texts of the parts -/

/-- A block alone is formatted as its markup is laid out. -/
lemma outcome_format_alone (s : Settings) (hwell : b.node.WellTyped) :
    ((programOf [b.node] []).format s).outcome =
      (b.node.markup s.style).document.layout s.page := by
  have hstatement : b.node.IsStatement := ⟨hwell, rfl⟩
  have hmarkup : Value.markupBody s.style false ([b.node].map .node) =
      [(b.node.markup s.style).document] := rfl
  rw [Node.outcome_format_programOf s (List.forall_mem_singleton.mpr hstatement), hmarkup,
    Document.layout_concat_singleton]

/-- A well-typed block is well-typed also without its statements. -/
lemma wellTyped_bare (hwell : b.node.WellTyped) : b.bare.node.WellTyped := by
  have hnone : (programOf [] b.names).WellTyped := Node.wellTyped_programOf (by simp) b.names
  exact (hwell.of_content.2.2 hnone rfl).without_inverse

/-- The raw texts of a block are those of its parts. -/
lemma isPlain_parts (hplain : b.node.IsPlain) :
    (∀ part ∈ b.path, Text.IsOneLine part) ∧ (programOf b.body b.names).IsPlain ∧
      b.inverseValue.IsPlain := by
  obtain ⟨hothers, hinverse⟩ := List.forall_mem_append.mp hplain
  obtain ⟨hcall, hcontent⟩ := List.forall_mem_append.mp hothers
  obtain ⟨hfirst, -⟩ := List.forall_mem_append.mp hcall
  obtain ⟨hpath, -⟩ := List.forall_mem_append.mp hfirst
  exact ⟨Value.forall_mem_raws_map_str.mp hpath, hcontent, hinverse⟩

/-- The end of a plain block is on one line. -/
lemma isOneLine_endTag (hplain : b.node.IsPlain) : Text.IsOneLine b.endTag := by
  have hmarks : Text.IsOneLine "\x7b\x7b/" ∧ Text.IsOneLine "\x7d\x7d" ∧ Text.IsOneLine "." := by
    decide
  have hname := Text.isOneLine_intercalate hmarks.2.2 (isPlain_parts hplain).1
  simp [endTag, hmarks, hname]

/-- What stands below the body of a block for its inverse are the texts of the inverse. -/
lemma exists_inverseTexts (s : Settings) (hwell : b.node.WellTyped) (hplain : b.node.IsPlain)
    (hshown : b.IsShown) :
    ∃ texts, s.inverseTexts b.inverse = .ok texts ∧
      StandsBelow s.page (inverseMarkup b.inverseValue (b.inverseValue.markup s.style)) texts := by
  have hinversePlain := (isPlain_parts hplain).2.2
  have hinverse := hshown.inverse
  obtain ⟨whole, path, params, named, body, names, inverse⟩ := b
  cases inverse with
  | none => exact ⟨[], rfl, Document.standsBelow_empty s.page⟩
  | some others =>
    obtain ⟨texts, htexts, hbelow⟩ := Node.exists_bodyTexts s hwell.of_inverse.1 hinversePlain
      (hinverse others rfl)
    refine ⟨"\x7b\x7belse\x7d\x7d" :: texts, ?_, Document.standsBelow_blockInverse hbelow⟩
    rw [Settings.inverseTexts, htexts]
    rfl

/-- Without statements a block has its header and its end, one below the other. -/
lemma exists_layout_header (s : Settings) (hwell : b.node.WellTyped) (hplain : b.node.IsPlain) :
    ∃ short, ((programOf [b.bare.node] []).format s).outcome = .ok short ∧
      (b.header s.style).layout s.page = .ok (Text.withoutLastLine short) := by
  have hbare := wellTyped_bare hwell
  have halone : ∀ n ∈ [b.bare.node], n.IsStatement := List.forall_mem_singleton.mpr ⟨hbare, rfl⟩
  obtain ⟨short, hshort⟩ := Node.exists_format s (Node.wellTyped_programOf halone [])
  have hlayout : (Markup.block (b.header s.style) .empty .empty
      (.ofString (".".intercalate b.path))).layout s.page = .ok short := by
    rw [← hshort, outcome_format_alone s hbare, document_markup]
    rfl
  obtain ⟨first, hfirst⟩ := Document.exists_layout_header hlayout
  have hempty := Document.standsBelow_empty s.page
  have hlines := Document.layout_block (endsFirm_header s.style b false) hfirst hempty hempty
    hlayout
  have hshortEq : short = first ++ "\n" ++ b.endTag := by
    rw [hlines]
    exact String.intercalate_cons_of_ne_nil (by simp)
  refine ⟨short, hshort, ?_⟩
  rw [hfirst, hshortEq, Text.withoutLastLine_append first (isOneLine_endTag hplain)]

/-! ## The text of a block -/

/-- The text of a block is made of the texts of its parts. -/
lemma exists_texts (s : Settings) (hwell : b.node.WellTyped) (hplain : b.node.IsPlain)
    (hshown : b.IsShown) :
    ∃ short body otherwise, ((programOf [b.bare.node] []).format s).outcome = .ok short ∧
      s.indentedText b.body = .ok body ∧ s.inverseTexts b.inverse = .ok otherwise ∧
      ((programOf [b.node] []).format s).outcome =
        .ok ("\n".intercalate
          (Text.withoutLastLine short :: body :: otherwise ++ [b.endTag])) := by
  obtain ⟨short, hshort, hheader⟩ := exists_layout_header s hwell hplain
  obtain ⟨otherwise, hotherwise, hbelow⟩ := exists_inverseTexts s hwell hplain hshown
  obtain ⟨body, hbodyText, hbodyBelow⟩ := Node.exists_indentedText s hwell.of_content.1
    (isPlain_parts hplain).2.1 hshown.body
  have halone : ∀ n ∈ [b.node], n.IsStatement := List.forall_mem_singleton.mpr ⟨hwell, rfl⟩
  obtain ⟨text, htext⟩ := Node.exists_format s (Node.wellTyped_programOf halone [])
  have hlayout := htext
  rw [outcome_format_alone s hwell, document_markup] at hlayout
  have hlines := Document.layout_block (endsFirm_header s.style b false) hheader hbodyBelow hbelow
    hlayout
  exact ⟨short, body, otherwise, hshort, hbodyText, hotherwise, htext.trans (hlines ▸ rfl)⟩

end Block

namespace Node

/-- Every well-typed block has its parts, and its text is made of theirs: its header, the indented
text of its body, those of its inverse and its end, one below the other.  The header is that of the
block without statements, and the body and the inverse are formatted as templates of their own on a
narrower page.  The end is on one line, so it stands under the header on a line of its own, as does
the mark of the inverse. -/
theorem format_block (s : Settings) {n : Node} (hwell : n.WellTyped) (hkind : n.kind = .block)
    (hplain : n.IsPlain) :
    (∃ b : Block, n = b.node) ∧ ∀ b : Block, n = b.node → b.IsShown →
      ∃ short body otherwise, ((programOf [b.bare.node] []).format s).outcome = .ok short ∧
        s.indentedText b.body = .ok body ∧ s.inverseTexts b.inverse = .ok otherwise ∧
        Text.IsOneLine b.endTag ∧ ((programOf [n] []).format s).outcome =
          .ok ("\n".intercalate
            (Text.withoutLastLine short :: body :: otherwise ++ [b.endTag])) := by
  refine ⟨hwell.exists_block hkind, ?_⟩
  rintro b rfl hshown
  obtain ⟨short, body, otherwise, hshort, hbody, hotherwise, htext⟩ :=
    Block.exists_texts s hwell hplain hshown
  exact ⟨short, body, otherwise, hshort, hbody, hotherwise, Block.isOneLine_endTag hplain, htext⟩

/-- A block with a block in its body, whose inverse is a comment of two lines. -/
def sampleParts : Block where
  whole := "each.item"
  path := ["each", "item"]
  params := [.string (.str "a b"), calleeNamed "items"]
  named := noNames
  body := [.text (.str "\n"), sampleBlock, .text (.str "one\ntwo")]
  names := ["item"]
  inverse := some ([.comment (.str "three\nfour")], [])

/-- The sample block is well-typed. -/
lemma wellTyped_sampleParts : sampleParts.node.WellTyped := by
  have htext : ∀ s : String, IsStatement (.text (.str s)) := fun s => ⟨.text s, rfl⟩
  have hcomment : IsStatement (.comment (.str "three\nfour")) := ⟨.comment _, rfl⟩
  have hbody : (programOf sampleParts.body sampleParts.names).WellTyped := by
    refine wellTyped_programOf ?_ _
    simpa [sampleParts] using ⟨htext _, ⟨wellTyped_sampleBlock, rfl⟩, htext _⟩
  have hparams : ∀ p ∈ sampleParts.params, p.WellTyped := by
    simpa [sampleParts] using ⟨.string _, .path _ _⟩
  have hkinds : ∀ m ∈ some (programOf [.comment (.str "three\nfour")] []), m.kind = .program := by
    simp [programOf, kind]
  have hothers : ∀ m ∈ some (programOf [.comment (.str "three\nfour")] []), m.WellTyped := by
    simpa using wellTyped_programOf (List.forall_mem_singleton.mpr hcomment) []
  exact .block ⟨rfl, by decide, rfl⟩ (.path _ _) hparams wellTyped_noNames rfl hbody hkinds hothers

/-- Something is shown of the body of the sample block, and of its inverse. -/
lemma isShown_sampleParts : sampleParts.IsShown := by
  refine ⟨⟨sampleBlock, by simp [sampleParts], rfl⟩, ?_⟩
  rintro others ⟨⟩
  exact .inr ⟨_, List.mem_singleton_self _, rfl⟩

/-- The sample on a narrow page with tabs. -/
theorem format_block_sample :
    sampleParts.node.WellTyped ∧ sampleParts.node.kind = .block ∧ sampleParts.node.IsPlain ∧
      sampleParts.IsShown ∧ ∃ short body otherwise,
        ((programOf [sampleParts.bare.node] []).format
          { printWidth := 16, useTabs := true }).outcome = .ok short ∧
        Settings.indentedText { printWidth := 16, useTabs := true } sampleParts.body = .ok body ∧
        Settings.inverseTexts { printWidth := 16, useTabs := true } sampleParts.inverse =
          .ok otherwise ∧
        Text.IsOneLine sampleParts.endTag ∧
        ((programOf [sampleParts.node] []).format
          { printWidth := 16, useTabs := true }).outcome =
          .ok ("\n".intercalate
            (Text.withoutLastLine short :: body :: otherwise ++ [sampleParts.endTag])) := by
  have hplain : sampleParts.node.IsPlain := by decide
  have hparts := format_block { printWidth := 16, useTabs := true } wellTyped_sampleParts rfl hplain
  exact ⟨wellTyped_sampleParts, rfl, hplain, isShown_sampleParts,
    hparts.2 sampleParts rfl isShown_sampleParts⟩

end Node

end GlimmerFormat
