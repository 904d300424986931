import GlimmerFormat.Proofs.Tree.Blank
import Mathlib.Logic.Relation

/-!
# Leaving out blank texts

Blank texts may be left out of a tree, one after the other: from the statements of a program,
wherever it stands, and from the children of an element that may have some.  What is left is a tree
of the same kind, well-typed if the tree was.

* `Node.DropsBlank`: a tree without one of its blank texts.
* `Node.Thinned`: a tree without any number of them.
* `Node.DropsBlank.wellTyped`: what is left is well-typed.
* `Node.emptyBodies`: how many bodies of blocks have no statements.
-/

namespace GlimmerFormat

/-- Nodes can be read off the values that they are in a list. -/
@[simp] lemma Value.map_node_inj {xs ys : List Node} :
    xs.map Value.node = ys.map Value.node ↔ xs = ys :=
  List.map_inj_right (by simp)

/-! ## Bodies without statements -/

/-- Whether a value is a program without statements. -/
def Value.isEmptyProgram : Value → Bool
  | .node (.program (.list []) _) => true
  | _ => false

mutual

/-- How many bodies of blocks in a value have no statements. -/
def Value.emptyBodies : Value → Nat
  | .list items => Value.emptyBodiesAll items
  | .node n => n.emptyBodies
  | _ => 0

/-- How many bodies of blocks in several values have no statements. -/
def Value.emptyBodiesAll : List Value → Nat
  | [] => 0
  | v :: vs => v.emptyBodies + Value.emptyBodiesAll vs

/-- How many bodies of blocks in a tree have no statements, the inverses of blocks counted. -/
def Node.emptyBodies : Node → Nat
  | .program body _ => body.emptyBodies
  | .block _ _ _ content inverse =>
    (content.isEmptyProgram.toNat + content.emptyBodies) +
      (inverse.isEmptyProgram.toNat + inverse.emptyBodies)
  | .element _ _ _ children _ => children.emptyBodies
  | _ => 0

end

/-- The empty bodies in statements are those in the first and those in the others. -/
lemma Value.emptyBodies_cons (n : Node) (ns : List Node) :
    (Value.list ((n :: ns).map .node)).emptyBodies =
      n.emptyBodies + (Value.list (ns.map .node)).emptyBodies := rfl

/-- The empty bodies in statements put together are those in each. -/
lemma Value.emptyBodies_append (xs ys : List Node) :
    (Value.list ((xs ++ ys).map .node)).emptyBodies =
      (Value.list (xs.map .node)).emptyBodies + (Value.list (ys.map .node)).emptyBodies := by
  induction xs with
  | nil => exact (Nat.zero_add _).symm
  | cons x xs ih =>
    rw [List.cons_append, Value.emptyBodies_cons, ih, Value.emptyBodies_cons, Nat.add_assoc]

namespace Node

/-! ## Trees without some blank texts -/

/-- The second tree is the first without one blank text: a statement of a program, or a child of an
element that is not void. -/
inductive DropsBlank : Node → Node → Prop
  | fromProgram {blank : Node} (h : blank.isBlankText = true) (before after : List Node)
    (blockParams : Value) :
    DropsBlank (.program (.list ((before ++ blank :: after).map .node)) blockParams)
      (.program (.list ((before ++ after).map .node)) blockParams)
  | fromElement {blank : Node} (h : blank.isBlankText = true) {tag : String}
    (htag : tag ∉ Value.voidElements) (attributes modifiers : Value) (before after : List Node)
    (blockParams : Value) :
    DropsBlank
      (.element (.str tag) attributes modifiers (.list ((before ++ blank :: after).map .node))
        blockParams)
      (.element (.str tag) attributes modifiers (.list ((before ++ after).map .node)) blockParams)
  | inProgram {n n' : Node} (h : DropsBlank n n') (before after : List Node)
    (blockParams : Value) :
    DropsBlank (.program (.list ((before ++ n :: after).map .node)) blockParams)
      (.program (.list ((before ++ n' :: after).map .node)) blockParams)
  | inElement {n n' : Node} (h : DropsBlank n n') (tag attributes modifiers : Value)
    (before after : List Node) (blockParams : Value) :
    DropsBlank
      (.element tag attributes modifiers (.list ((before ++ n :: after).map .node)) blockParams)
      (.element tag attributes modifiers (.list ((before ++ n' :: after).map .node)) blockParams)
  | inContent {n n' : Node} (h : DropsBlank n n') (callee params named inverse : Value) :
    DropsBlank (.block callee params named (.node n) inverse)
      (.block callee params named (.node n') inverse)
  | inInverse {n n' : Node} (h : DropsBlank n n') (callee params named content : Value) :
    DropsBlank (.block callee params named content (.node n))
      (.block callee params named content (.node n'))

/-- The second tree is the first without any number of blank texts. -/
def Thinned : Node → Node → Prop :=
  Relation.ReflTransGen DropsBlank

variable {n n' : Node}

/-! ## What is left -/

/-- A tree keeps its kind when a blank text is dropped. -/
lemma DropsBlank.kind_eq (h : DropsBlank n n') : n'.kind = n.kind := by
  cases h <;> rfl

/-- Texts themselves stay as they are. -/
lemma DropsBlank.kind_ne_text (h : DropsBlank n n') : n.kind ≠ .text := by
  cases h <;> simp [kind]

/-- Any statements may stand in the place of those of a well-typed program. -/
lemma WellTyped.of_program {body : List Node} {blockParams : Value}
    (h : (Node.program (.list (body.map .node)) blockParams).WellTyped) :
    (∀ m ∈ body, m.IsStatement) ∧ ∀ {body' : List Node}, (∀ m ∈ body', m.IsStatement) →
      (Node.program (.list (body'.map .node)) blockParams).WellTyped := by
  generalize hlist : Value.list (body.map .node) = list at h
  cases h with
  | @program others hkinds hbody names =>
    obtain rfl : body = others := by simpa using hlist
    refine ⟨fun m hm => ⟨hbody m hm, hkinds m hm⟩, ?_⟩
    intro body' hbody'
    exact .program (fun m hm => (hbody' m hm).kind) (fun m hm => (hbody' m hm).wellTyped) names

/-- Any statements may stand in the place of the children of a well-typed element. -/
lemma WellTyped.of_element {tag attributes modifiers blockParams : Value} {children : List Node}
    (h : (Node.element tag attributes modifiers (.list (children.map .node))
      blockParams).WellTyped) :
    (∀ m ∈ children, m.IsStatement) ∧ ∀ {children' : List Node}, (∀ m ∈ children', m.IsStatement) →
      (Node.element tag attributes modifiers (.list (children'.map .node)) blockParams).WellTyped :=
    by
  generalize hlist : Value.list (children.map .node) = list at h
  cases h with
  | @element name attributes modifiers others hattributeKinds hattributes hmodifierKinds hmodifiers
      hchildKinds hchildren names =>
    obtain rfl : children = others := by simpa using hlist
    refine ⟨fun m hm => ⟨hchildren m hm, hchildKinds m hm⟩, ?_⟩
    intro children' hchildren'
    exact .element name hattributeKinds hattributes hmodifierKinds hmodifiers
      (fun m hm => (hchildren' m hm).kind) (fun m hm => (hchildren' m hm).wellTyped) names

/-- Any program may stand in the place of the content of a well-typed block. -/
lemma WellTyped.of_content {callee params named inverse : Value} {content : Node}
    (h : (Node.block callee params named (.node content) inverse).WellTyped) :
    content.WellTyped ∧ content.kind = .program ∧ ∀ {content' : Node}, content'.WellTyped →
      content'.kind = .program →
      (Node.block callee params named (.node content') inverse).WellTyped := by
  cases h with
  | block hkinds hcallee hparams hnamed hcontentKind hcontent hinverseKind hinverse =>
    refine ⟨hcontent, hcontentKind, ?_⟩
    intro content' hcontent' hkind'
    exact .block hkinds hcallee hparams hnamed hkind' hcontent' hinverseKind hinverse

/-- Any program may stand in the place of the inverse of a well-typed block. -/
lemma WellTyped.of_inverse {callee params named content : Value} {inverse : Node}
    (h : (Node.block callee params named content (.node inverse)).WellTyped) :
    inverse.WellTyped ∧ inverse.kind = .program ∧ ∀ {inverse' : Node}, inverse'.WellTyped →
      inverse'.kind = .program →
      (Node.block callee params named content (.node inverse')).WellTyped := by
  generalize hsome : Value.node inverse = value at h
  cases h with
  | @block _ _ _ _ other hkinds hcallee hparams hnamed hcontentKind hcontent hinverseKind
      hinverse =>
    obtain rfl : other = some inverse := by cases other <;> simp_all
    refine ⟨hinverse inverse rfl, hinverseKind inverse rfl, ?_⟩
    intro inverse' hinverse' hkind'
    have hkinds' : ∀ m ∈ some inverse', m.kind = .program := by simpa using hkind'
    have hinverses : ∀ m ∈ some inverse', m.WellTyped := by simpa using hinverse'
    exact .block hkinds hcallee hparams hnamed hcontentKind hcontent hkinds' hinverses

/-- A well-typed block may lack an inverse. -/
lemma WellTyped.without_inverse {callee params named content inverse : Value}
    (h : (Node.block callee params named content inverse).WellTyped) :
    (Node.block callee params named content .null).WellTyped := by
  cases h with
  | block hkinds hcallee hparams hnamed hcontentKind hcontent hinverseKind hinverse =>
    have hkind : ∀ m ∈ (none : Option Node), m.kind = .program := by simp
    have hwell : ∀ m ∈ (none : Option Node), m.WellTyped := by simp
    exact .block hkinds hcallee hparams hnamed hcontentKind hcontent hkind hwell

/-- A statement may be changed for another. -/
lemma IsStatement.exchange {before after : List Node}
    (h : ∀ m ∈ before ++ n :: after, m.IsStatement) (hn : n.IsStatement → n'.IsStatement) :
    ∀ m ∈ before ++ n' :: after, m.IsStatement := by
  simp only [List.forall_mem_append, List.forall_mem_cons] at h ⊢
  exact ⟨h.1, hn h.2.1, h.2.2⟩

/-- A statement may be left out. -/
lemma IsStatement.drop {before after : List Node} (h : ∀ m ∈ before ++ n :: after, m.IsStatement) :
    ∀ m ∈ before ++ after, m.IsStatement := by
  simp only [List.forall_mem_append, List.forall_mem_cons] at h ⊢
  exact ⟨h.1, h.2.2⟩

/-- There is no body in a blank text. -/
lemma emptyBodies_of_isBlankText (h : n.isBlankText = true) : n.emptyBodies = 0 := by
  cases n <;> first | rfl | cases h

/-- What something is left out of had statements. -/
lemma DropsBlank.isEmptyProgram_eq_false (h : DropsBlank n n') :
    (Value.node n).isEmptyProgram = false := by
  cases h with
  | fromProgram _ before | inProgram _ before => cases before <;> rfl
  | _ => rfl

/-- What is left of a well-typed tree is well-typed. -/
theorem DropsBlank.wellTyped (h : DropsBlank n n') : n.WellTyped → n'.WellTyped := by
  have hstatement : ∀ {m m' : Node}, DropsBlank m m' → (m.WellTyped → m'.WellTyped) →
      m.IsStatement → m'.IsStatement := by
    intro m m' hm ih hstatement
    exact ⟨ih hstatement.wellTyped, hm.kind_eq ▸ hstatement.kind⟩
  induction h with
  | fromProgram _ before after =>
    intro hn
    exact hn.of_program.2 (IsStatement.drop hn.of_program.1)
  | fromElement _ _ attributes modifiers before after =>
    intro hn
    exact hn.of_element.2 (IsStatement.drop hn.of_element.1)
  | inProgram h before after blockParams ih =>
    intro hn
    exact hn.of_program.2 (IsStatement.exchange hn.of_program.1 (hstatement h ih))
  | inElement h tag attributes modifiers before after blockParams ih =>
    intro hn
    exact hn.of_element.2 (IsStatement.exchange hn.of_element.1 (hstatement h ih))
  | inContent h callee params named inverse ih =>
    intro hn
    obtain ⟨hcontent, hkind, hothers⟩ := hn.of_content
    exact hothers (ih hcontent) (h.kind_eq.trans hkind)
  | inInverse h callee params named content ih =>
    intro hn
    obtain ⟨hinverse, hkind, hothers⟩ := hn.of_inverse
    exact hothers (ih hinverse) (h.kind_eq.trans hkind)

end Node

end GlimmerFormat
