import GlimmerFormat.Proofs.Document.Plain
import GlimmerFormat.Proofs.Document.Regular
import GlimmerFormat.Proofs.Printing.Statements
import GlimmerFormat.Proofs.Tree.Raw

/-!
# Properties that printing keeps

Printing builds documents of the raw texts of a tree, of marks that it adds and of reflowed texts.
A property of documents that the builders keep therefore holds of whatever is printed, as soon as it
holds of these strings.

* `Markup.IsWriting`: properties of strings that hold of all that printing adds.
* `Document.KeptByBuilders`: properties of documents that the builders keep.
* `Node.markup_kept`: such a property holds of the markup of a well-typed tree.
-/

namespace GlimmerFormat

open Markup (QuoteStyle)

/-! ## What is kept -/

/-- The strings that printing adds to the texts of a tree. -/
def Markup.marks : List String :=
  ["", " ", ".", "'", "\"", "=", "|", "as |", "(", ")", "\x7b\x7b", "\x7d\x7d", "\x7b\x7b\x7b",
    "\x7d\x7d\x7d", "\x7b\x7b!", "\x7b\x7b#", "\x7b\x7b/", "\x7b\x7belse\x7d\x7d", "<", ">", " />",
    "</", "true", "false", "null"]

/-- A property of strings that holds of all that printing adds, and of strings put together. -/
structure Markup.IsWriting (q : String → Prop) : Prop where
  mark : ∀ s ∈ marks, q s
  number : ∀ {v : Value}, v.isNumber = true → q v.numberText
  append : ∀ {s t : String}, q s → q t → q (s ++ t)

/-- A property of documents that the builders keep, and that strings with a property have. -/
structure Document.KeptByBuilders (q : String → Prop) (p : Document → Prop) : Prop where
  string : ∀ {s : String}, q s → p (ofString s)
  line : p line
  softline : p softline
  hardline : p .hardline
  paragraph : ∀ s : String, p (paragraph s)
  ofList : ∀ {ds : List Document}, (∀ d ∈ ds, p d) → p (ofList ds)
  grouped : ∀ {d : Document}, p d → p d.grouped
  indented : ∀ {d : Document}, p d → p d.indented
  aligned : ∀ {amount : Int} {d : Document}, p d → p (d.aligned amount)

section

variable {q : String → Prop} {p : Document → Prop}

namespace Markup.IsWriting

variable (hq : IsWriting q)

include hq

/-- What holds of a string and of the quotes holds of the string as a literal. -/
lemma literal (style : QuoteStyle) {s : String} (h : q s) : q (style.literal s) := by
  have hmark : q style.mark := by
    cases style
    · exact hq.mark "'" (by simp [marks])
    · exact hq.mark "\"" (by simp [marks])
  rw [QuoteStyle.literal]
  split
  · exact h
  · exact hq.append (hq.append hmark h) hmark

/-- What holds of strings and of a point holds of the strings with points between them. -/
lemma intercalate {ss : List String} (h : ∀ s ∈ ss, q s) : q (".".intercalate ss) := by
  induction ss with
  | nil => exact hq.mark "" (by simp [marks])
  | cons s ss ih =>
    have hss := ih fun t ht => h t (by simp [ht])
    have hs := h s (by simp)
    cases ss with
    | nil => rwa [String.intercalate_singleton]
    | cons t ts =>
      rw [String.intercalate_cons_of_ne_nil (by simp)]
      exact hq.append (hq.append hs (hq.mark "." (by simp [marks]))) hss

end Markup.IsWriting

namespace Document

/-- What holds of everything but texts, breaks and fills whatever is inside is kept. -/
lemma keptByBuilders_everywhere (hempty : p .empty) (hconcat : ∀ docs, p (.concat docs))
    (hgroup : ∀ d, p (.group d)) (hindent : ∀ d, p (.indent d))
    (halign : ∀ amount d, p (.align amount d)) (hhardline : p .hardline)
    (htext : ∀ s, q s → p (.text s)) (hline : p line) (hsoftline : p softline)
    (hparagraph : ∀ s, Everywhere p (paragraph s)) : KeptByBuilders q (Everywhere p) where
  string hs := everywhere_ofString hempty (htext _ hs)
  line := hline
  softline := hsoftline
  hardline := hhardline
  paragraph := hparagraph
  ofList := (everywhere_ofList hempty hconcat).mpr
  grouped := everywhere_grouped hgroup
  indented := everywhere_indented hindent
  aligned := everywhere_aligned halign

namespace KeptByBuilders

variable (hp : KeptByBuilders q p)

include hp

/-- Nothing has the property, being made of no documents. -/
lemma empty : p .empty := hp.ofList (List.forall_mem_nil p)

/-- What is printed only if there is something has the property either way. -/
lemma ifAny (count : Except Fault Nat) {d : Document} (h : p d) : p (ifAny count d) := by
  rcases count with e | _ | k
  · exact hp.empty
  · exact hp.empty
  · exact h

/-- Documents with breaks between any two. -/
lemma joined {ds : List Document} (h : ∀ d ∈ ds, p d) : p (joined Document.line ds) := by
  refine hp.ofList fun d hd => ?_
  rcases eq_or_mem_of_mem_intersperse hd with rfl | hd
  · exact hp.line
  · exact h d hd

/-- The strings that printing adds have the property as documents. -/
lemma mark (hq : Markup.IsWriting q) : ∀ s ∈ Markup.marks, p (ofString s) :=
  fun s hs => hp.string (hq.mark s hs)

/-- The quote around the texts of attributes has the property. -/
lemma quote (hq : Markup.IsWriting q) : p Markup.quote :=
  hp.mark hq "\"" (by simp [Markup.marks])

end KeptByBuilders

end Document

end

namespace Node

variable {q : String → Prop} {p : Document → Prop} {style : QuoteStyle}
  (hp : Document.KeptByBuilders q p) (hq : Markup.IsWriting q)

include hp hq

/-! ## Blocks and elements -/

/-- The names of a block have the property if each does as a string. -/
lemma markupNames_kept (body : Value) {names : List String} (h : ∀ name ∈ names, q name) :
    p (Value.node (.program body (.list (names.map .str)))).markupNames := by
  have hnames : ∀ d ∈ names.map Document.ofString, p d := by
    intro d hd
    obtain ⟨name, hname, rfl⟩ := List.mem_map.mp hd
    exact hp.string (h name hname)
  have hmark := hp.mark hq
  rw [Value.markupNames, Value.texts_map_str]
  refine hp.ifAny _ (hp.ofList ?_)
  simp (disch := decide) [hp.line, hmark, hp.joined hnames]

/-- A block has the property if its parts do. -/
lemma blockMarkup_kept {callee call statements others : Document} {content : Value}
    (inverse : Value) (hcallee : p callee) (hcall : p call) (hnames : p content.markupNames)
    (hstatements : p statements) (hothers : p others) :
    p (blockMarkup callee call content statements inverse others) := by
  have hmark := hp.mark hq
  have hbody : ∀ (content : Value) {statements : Document}, p statements →
      p (bodyMarkup content statements) := by
    intro content statements h
    exact hp.ifAny _ (hp.indented (hp.ofList (by simp [hp.hardline, h])))
  have hinverse : p (inverseMarkup inverse others) := by
    unfold inverseMarkup
    split
    · exact hp.empty
    · exact hp.ofList (by simp (disch := decide) [hp.hardline, hmark, hbody inverse hothers])
  have hheader : p (Markup.blockHeader call content.markupNames) := by
    have hinside : p (Document.indented (.ofList [call, content.markupNames])) :=
      hp.indented (hp.ofList (by simp [hcall, hnames]))
    exact hp.grouped (hp.ofList (by simp (disch := decide) [hp.softline, hmark, hinside]))
  refine hp.grouped (hp.ofList ?_)
  simp (disch := decide) [hheader, hbody content hstatements, hinverse, hp.hardline, hmark, hcallee]

/-- An element has the property if its parts do. -/
lemma elementMarkup_kept {tag : String} (attributes modifiers children : Value)
    {attributeDocs modifierDocs : List Document} {statements : Document} (htag : q tag)
    (hattributes : ∀ d ∈ attributeDocs, p d) (hmodifiers : ∀ d ∈ modifierDocs, p d)
    (hstatements : p statements) :
    p (elementMarkup tag attributes attributeDocs modifiers modifierDocs children
      statements) := by
  have hmark := hp.mark hq
  have hname : p (.ofString tag) := hp.string htag
  have hchoice : ∀ (b : Bool) {d e : Document}, p d → p e → p (if b then d else e) := by
    intro b d e hd he
    cases b
    · exact he
    · exact hd
  have hattributesDoc : p (Markup.attributes attributeDocs) :=
    hp.ofList (by simp (disch := decide) [hmark, hp.joined hattributes])
  have hmodifiersDoc : ∀ after, p (Markup.modifiers after modifierDocs) := by
    intro after
    refine hp.ofList ?_
    cases after <;> simp (disch := decide) [hmark, hp.line, hp.joined hmodifiers]
  have hstartTag : ∀ {attributes modifiers : Document} (closes : Bool), p attributes →
      p modifiers → p (Markup.startTag tag attributes modifiers closes) := by
    intro attributes modifiers closes ha hm
    have hinside : p (Document.aligned (tag.length + 2) (.ofList [attributes, modifiers])) :=
      hp.aligned (hp.ofList (by simp [ha, hm]))
    refine hp.grouped (hp.ofList ?_)
    cases closes <;> simp (disch := decide) [hmark, hname, hinside]
  have hchildren : p (Markup.children statements) :=
    hp.indented (hp.ofList (by simp [hp.softline, hstatements]))
  have hendTag : p (Markup.endTag tag) :=
    hp.ofList (by simp (disch := decide) [hp.softline, hmark, hname])
  refine hp.grouped (hp.ofList ?_)
  simp only [List.forall_mem_cons, List.not_mem_nil, false_imp_iff, implies_true, and_true]
  exact ⟨hstartTag _ (hp.ifAny _ hattributesDoc) (hp.ifAny _ (hmodifiersDoc _)),
    hchoice _ hchildren hp.empty, hchoice _ hp.empty hendTag⟩

/-! ## Lists of nodes -/

omit hp hq in
/-- What nodes are printed as has the property if it does for each. -/
lemma forall_mem_markupAll {ns : List Node} (h : ∀ n ∈ ns, p (n.markup style).document) :
    ∀ d ∈ Value.markupAll style (ns.map .node), p d := by
  rw [markupAll_map_node, List.map_map]
  intro d hd
  obtain ⟨n, hn, rfl⟩ := List.mem_map.mp hd
  exact h n hn

omit hq in
/-- A call has a property that is kept if the nodes of the call have it. -/
lemma callMarkup_kept {callee named : Node} {params : List Node}
    (h : ∀ s ∈ (Value.node callee).raws ++ (Value.list (params.map .node)).raws ++
      (Value.node named).raws, q s)
    (hcallee : (∀ s ∈ callee.raws, q s) → p (callee.markup style).document)
    (hparams : ∀ n ∈ params, (∀ s ∈ n.raws, q s) → p (n.markup style).document)
    (hnamed : (∀ s ∈ named.raws, q s) → p (named.markup style).document) :
    p (callMarkup ((Value.node callee).markup style) (.list (params.map .node))
      ((Value.list (params.map .node)).markupItems style) (.node named)
      ((Value.node named).markup style)) := by
  obtain ⟨hfirst, hnamedRaws⟩ := List.forall_mem_append.mp h
  obtain ⟨hcalleeRaws, hparamsRaws⟩ := List.forall_mem_append.mp hfirst
  have hparamsOwn := Value.forall_mem_raws_map_node.mp hparamsRaws
  have hdocs := forall_mem_markupAll fun n hn => hparams n hn (hparamsOwn n hn)
  have hpositional : p (Markup.positional
      ((Value.list (params.map .node)).markupItems style)) :=
    hp.grouped (hp.ofList (by simp [hp.line, hp.joined hdocs, Value.markupItems]))
  have hcalleeDoc : p ((Value.node callee).markup style) := hcallee hcalleeRaws
  have hnamedDoc : p ((Value.node named).markup style) := hnamed hnamedRaws
  have hbyName : p (Markup.named ((Value.node named).markup style)) :=
    hp.ofList (by simp [hp.line, hnamedDoc])
  refine hp.grouped (hp.ofList ?_)
  simp [hcalleeDoc, hp.ifAny _ hpositional, hp.ifAny _ hbyName]

omit hq in
/-- Statements stand behind separators, and texts among them are reflowed. -/
lemma forall_mem_markupBody {ns : List Node} (hwell : ∀ n ∈ ns, n.WellTyped)
    (h : ∀ n ∈ ns, n.kind ≠ .text → p (n.markup style).document) (after : Bool) :
    ∀ d ∈ Value.markupBody style after (ns.map .node), p d := by
  induction ns generalizing after with
  | nil => simp [Value.markupBody]
  | cons n ns ih =>
    have hn := hwell n (by simp)
    have hothers := ih (fun m hm => hwell m (by simp [hm])) fun m hm => h m (by simp [hm])
    cases hblank : n.isBlankText with
    | true =>
      rw [markupBody_cons_of_blank hn hblank]
      exact hothers after
    | false =>
      have hseparator : ∀ d ∈ (if after then [Markup.separator (Value.node n).isTextNode] else []),
          p d := by
        cases after <;> cases (Value.node n).isTextNode <;>
          simp [Markup.separator, hp.softline, hp.hardline]
      have hstatement : p (n.statementMarkup style) := by
        by_cases hkind : n.kind = .text
        · cases hn <;> first | exact hp.paragraph _ | cases hkind
        · rw [statementMarkup_of_kind_ne hkind]
          exact h n (by simp) hkind
      rw [markupBody_cons_of_shown hn hblank, List.forall_mem_append, List.forall_mem_cons]
      exact ⟨hseparator, hstatement, hothers true⟩

/-! ## Every kind of node -/

/-- A property that the builders keep holds of the markup of a well-typed tree if its strings have
what is asked of them. -/
theorem markup_kept {n : Node} (hn : n.WellTyped) (h : ∀ s ∈ n.raws, q s) :
    p (n.markup style).document := by
  have hmark := hp.mark hq
  -- A string that stands for itself is raw, so it has what is asked.
  have hown : ∀ {s : String}, (∀ t ∈ (Value.str s).raws, q t) → p (.ofString s) :=
    fun h => hp.string (h _ (List.mem_singleton_self _))
  induction hn with
  | path whole parts =>
    have hparts := hq.intercalate (Value.forall_mem_raws_map_str.mp h)
    rw [markup, Value.texts_map_str]
    exact hp.string hparts
  | string s => exact hp.string (hq.literal style (h s (List.mem_singleton_self s)))
  | number hnumber => exact hp.string (hq.number hnumber)
  | boolean b =>
    cases b
    · exact hmark "false" (by simp [Markup.marks])
    · exact hmark "true" (by simp [Markup.marks])
  | null => exact hmark "null" (by simp [Markup.marks])
  | text chars => exact hown h
  | @pair key value hkind hvalue ih =>
    obtain ⟨hkey, hvalueRaws⟩ := List.forall_mem_append.mp h
    have hvalueDoc : p ((Value.node value).markup style) := ih hvalueRaws
    have hkeyDoc : p (Value.str key).document := hown hkey
    rw [markup, Part.document_doc]
    exact hp.ofList (by simp (disch := decide) [hkeyDoc, hmark, hvalueDoc])
  | hash hkinds hpairs ih =>
    have hpairsRaws := Value.forall_mem_raws_map_node.mp h
    exact hp.joined (forall_mem_markupAll fun n hn => ih n hn (hpairsRaws n hn))
  | subexpression hkinds hcallee hparams hnamed ihc ihp ihn =>
    have hcall := callMarkup_kept hp h ihc ihp ihn
    have hinside := hp.indented hcall
    rw [markup, Part.document_doc]
    exact hp.grouped (hp.ofList (by simp (disch := decide) [hmark, hp.softline, hinside]))
  | mustache hkinds hcallee hparams hnamed escaped ihc ihp ihn =>
    have hcall := callMarkup_kept hp h ihc ihp ihn
    have hinside := hp.indented hcall
    rw [markup, Part.document_doc, Markup.mustache]
    split <;> exact hp.grouped (hp.ofList (by simp (disch := decide) [hmark, hinside]))
  | modifier hkinds hcallee hparams hnamed ihc ihp ihn =>
    have hcall := callMarkup_kept hp h ihc ihp ihn
    rw [markup, Part.document_doc]
    exact hp.grouped (hp.ofList (by simp (disch := decide) [hmark, hcall]))
  | comment text =>
    rw [markup, Part.document_doc, Value.string]
    have hwords : p (Document.indented (.ofList [.line, .paragraph text])) :=
      hp.indented (hp.ofList (by simp [hp.line, hp.paragraph]))
    exact hp.grouped (hp.ofList (by simp (disch := decide) [hmark, hp.line, hwords]))
  | concat hkinds hparts ih =>
    have hpartsRaws := Value.forall_mem_raws_map_node.mp h
    have hdocs := forall_mem_markupAll fun n hn => ih n hn (hpartsRaws n hn)
    have hquote := List.forall_mem_singleton.mpr (hp.quote hq)
    rw [markup, Part.document_doc]
    exact hp.grouped (hp.ofList (List.forall_mem_append.mpr
      ⟨List.forall_mem_append.mpr ⟨hquote, hdocs⟩, hquote⟩))
  | @attr name value hkind hvalue ih =>
    obtain ⟨hname, hvalueRaws⟩ := List.forall_mem_append.mp h
    have hvalueDoc : p ((Value.node value).markup style) := ih hvalueRaws
    have hnameDoc : p (Value.str name).document := hown hname
    rw [markup, Part.document_doc, Markup.attr]
    split <;>
      exact hp.ofList (by simp (disch := decide) [hnameDoc, hmark, hp.quote hq, hvalueDoc])
  | program hkinds hbody blockParams ih =>
    have hstatements := Value.forall_mem_statementRaws.mp (List.forall_mem_append.mp h).2
    exact hp.ofList
      (forall_mem_markupBody hp hbody (fun n hn hkind => ih n hn (hstatements n hn hkind)) false)
  | @block callee named content params inverse hkinds hcallee hparams hnamed hcontentKind hcontent
      hinverseKind hinverse ihc ihp ihn ihcontent ihinverse =>
    obtain ⟨hothers, hinverseRaws⟩ := List.forall_mem_append.mp h
    obtain ⟨hcallRaws, hcontentRaws⟩ := List.forall_mem_append.mp hothers
    have hcall := callMarkup_kept hp hcallRaws ihc ihp ihn
    have hcalleeRaws : ∀ s ∈ callee.raws, q s :=
      (List.forall_mem_append.mp (List.forall_mem_append.mp hcallRaws).1).1
    have hinverseDoc : p ((inverse.elim Value.null .node).markup style) := by
      cases inverse with
      | none => exact hp.empty
      | some n => exact ihinverse n rfl hinverseRaws
    have hnames : p (Value.node content).markupNames := by
      obtain ⟨body, names, rfl⟩ := hcontent.exists_program hcontentKind
      exact markupNames_kept hp hq _
        (Value.forall_mem_raws_map_str.mp (List.forall_mem_append.mp hcontentRaws).1)
    exact blockMarkup_kept hp hq _ (ihc hcalleeRaws) hcall hnames (ihcontent hcontentRaws)
      hinverseDoc
  | element tag hattributeKinds hattributes hmodifierKinds hmodifiers hchildKinds hchildren
      blockParams iha ihm ihc =>
    obtain ⟨hothers, hchildrenRaws⟩ := List.forall_mem_append.mp h
    obtain ⟨hfirst, hmodifiersRaws⟩ := List.forall_mem_append.mp hothers
    obtain ⟨htag, hattributesRaws⟩ := List.forall_mem_append.mp hfirst
    have hattributesOwn := Value.forall_mem_raws_map_node.mp hattributesRaws
    have hmodifiersOwn := Value.forall_mem_raws_map_node.mp hmodifiersRaws
    have hchildrenOwn := Value.forall_mem_statementRaws.mp hchildrenRaws
    have hstatements := forall_mem_markupBody hp hchildren
      (fun n hn hkind => ihc n hn (hchildrenOwn n hn hkind)) false
    exact elementMarkup_kept hp hq _ _ _ (htag tag (List.mem_singleton_self tag))
      (forall_mem_markupAll fun n hn => iha n hn (hattributesOwn n hn))
      (forall_mem_markupAll fun n hn => ihm n hn (hmodifiersOwn n hn)) (hp.ofList hstatements)

end Node

/-! ## Plain and straight documents -/

namespace Document

/-- The builders make plain documents of plain ones and of strings on one line. -/
lemma keptByBuilders_isPlain : KeptByBuilders Text.IsOneLine IsPlain :=
  keptByBuilders_everywhere trivial (fun _ => trivial) (fun _ => trivial) (fun _ => trivial)
    (fun _ _ => trivial) trivial (fun _ h => h) isPlain_line isPlain_softline isPlain_paragraph

/-- A paragraph is straight: a content stands behind each line in it. -/
lemma isStraight_paragraph (s : String) : (paragraph s).IsStraight := by
  have hparagraph := (isRegular_paragraph s).1
  exact ⟨hparagraph.endsWithContent,
    hparagraph.everywhereAll (fun _ => trivial) fun _ => trivial⟩

/-- The builders make straight documents of straight ones. -/
lemma keptByBuilders_isStraight : KeptByBuilders (fun _ => True) IsStraight :=
  keptByBuilders_everywhere trivial (fun _ => trivial) (fun _ => trivial) (fun _ => trivial)
    (fun _ _ => trivial) trivial (fun _ _ => trivial) trivial trivial isStraight_paragraph

end Document

namespace Node

variable {style : QuoteStyle}

/-- The markup of a well-typed tree whose raw texts hold no newline characters holds none: what
printing adds is on one line, and reflowing takes the newline characters of other texts out. -/
theorem isPlain_markup {n : Node} (hn : n.WellTyped) (h : n.IsPlain) :
    (n.markup style).document.IsPlain := by
  have hwriting : Markup.IsWriting Text.IsOneLine :=
    ⟨by decide, Value.isOneLine_numberText, fun hs ht => Text.isOneLine_append.mpr ⟨hs, ht⟩⟩
  exact markup_kept Document.keptByBuilders_isPlain hwriting hn h

/-- The markup of a well-typed tree holds no choices and no strays, and each of its fills is empty
or starts and ends with a content. -/
theorem isStraight_markup {n : Node} (hn : n.WellTyped) :
    (n.markup style).document.IsStraight :=
  markup_kept Document.keptByBuilders_isStraight
    ⟨fun _ _ => trivial, fun _ => trivial, fun _ _ => trivial⟩ hn fun _ _ => trivial

end Node

end GlimmerFormat
