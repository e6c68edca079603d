/-
Namespaces in the finished document.

The builder resolves a qualifier as an element begins, from the declarations
of its tag and of the elements that are open. In the document that comes of it
a qualifier is looked up from a node, through the elements that it lies in.
Both go through the same declarations in the same order: those on the way from
the node to the document, `Node.context`, are the context that the element was
resolved in (`resolved_nodesOf`). So what is recorded and what is looked up
agree, whatever is declared again, shadowed or undeclared on the way.
-/
import Stencil.Proofs.Markup.Resolved

namespace Stencil.Markup

-- ================================================================ contexts

/-- What the element of a tree declares. -/
def Tree.declarations (t : Tree) : Declarations :=
  match t.content with
  | .element e => e.declarations
  | _ => []

/-- The declarations of the elements that a node lies in, nearest first. -/
def Node.context (n : Node) : Context := n.trail.map Tree.declarations

namespace Node

theorem declared?_eq (n : Node) (q : Option String) :
    n.declared? q = n.tree.declarations.find? q := by
  have hcontent : n.content = n.tree.content := rfl
  unfold declared? element? Tree.declarations
  rw [hcontent]
  cases n.tree.content <;> rfl

/-- Looking up through nodes is looking up through their declarations. -/
theorem findSome?_onTrail (origin : Origin) (trail : List Tree)
    (q : Option String) :
    (onTrail origin trail).findSome? (fun m => m.declared? q)
      = (trail.map Tree.declarations).findSome? fun ds => ds.find? q := by
  induction trail with
  | nil => rfl
  | cons t ts ih =>
    rw [onTrail, List.map_cons, List.findSome?_cons, List.findSome?_cons, ih,
      declared?_eq]

/-- What is looked up is what the context of the node says, where an empty URI
is none. -/
theorem filter_resolve? (n : Node) (q : Option String) :
    (n.resolve? q).filter (fun uri => !uri.isEmpty)
      = uriOf? (n.tree.declarations :: n.context) q := by
  unfold resolve? uriOf?
  by_cases hxml : q = some "xml"
  · rw [if_pos hxml, if_pos hxml]
    decide
  · rw [if_neg hxml, if_neg hxml, lineage, ancestors, List.findSome?_cons,
      declared?_eq, findSome?_onTrail, List.findSome?_cons]
    rfl

end Node

-- =================================================================== nodes

mutual

/-- The context that an element was resolved in is that of its node. -/
theorem resolved_nodesOf (origin : Origin) : ∀ (trail : List Tree) (t : Tree),
    t.Tidy → t.Resolved (trail.map Tree.declarations) →
    ∀ n ∈ nodesOf origin trail t, ∀ e, n.element? = some e →
      e.Resolved n.context
  | trail, .node ⟨id, place, content⟩ ts, htidy, h, n, hn, e, he => by
    obtain ⟨horderly, hbelow⟩ := Tree.tidy_node.1 htidy
    rcases List.mem_cons.1 hn with rfl | hn
    · cases content with
      | element e' =>
        cases he
        exact h.1
      | _ => cases he
    · refine resolved_nodesOfAll origin _ ts hbelow ?_ n hn e he
      rcases horderly.leaf with hc | hc | hc
      · cases hc
        exact h
      · cases content with
        | element e' => exact h.2
        | _ => cases hc
      · cases hc
        exact trivial

theorem resolved_nodesOfAll (origin : Origin) :
    ∀ (trail ts : List Tree), (∀ t ∈ ts, t.Tidy) →
    Tree.AllResolved (trail.map Tree.declarations) ts →
    ∀ n ∈ nodesOfAll origin trail ts, ∀ e, n.element? = some e →
      e.Resolved n.context
  | _, [], _, _, _, hn, _, _ => absurd hn List.not_mem_nil
  | trail, t :: ts, htidy, ⟨ht, hts⟩, n, hn, e, he => by
    obtain ⟨hfirst, hrest⟩ := List.forall_mem_cons.1 htidy
    rcases List.mem_append.1 hn with hn | hn
    · exact resolved_nodesOf origin trail t hfirst ht n hn e he
    · exact resolved_nodesOfAll origin trail ts hrest hts n hn e he

end

-- ================================================================ agreement

/-- A qualifier at a node stands for a namespace: it is looked up to be that
one, which is not the empty URI. -/
def Node.Binds (n : Node) (q uri : String) : Prop :=
  n.resolve? (some q) = some uri ∧ uri ≠ ""

/-- The namespace recorded with an attribute of a node: declarations have one
of their own, an attribute without a qualifier has none, and of any other the
qualifier stands for it. -/
def Attribute.LookedUp (n : Node) (a : Attribute) : Prop :=
  if a.name.text = "xmlns" ∨ a.name.qualifier = some "xmlns" then
    a.uri = some declarationUri
  else
    match a.name.qualifier with
    | none => a.uri = none
    | some q => ∃ uri, n.Binds q uri ∧ a.uri = some uri

/-- The namespaces recorded with the element of a node are those that are
looked up from the node. -/
structure Element.LookedUp (n : Node) (e : Element) : Prop where
  /-- The element has what its qualifier, or the lack of one, is looked up to
  be, where an empty URI is none. -/
  uri : e.uri = (n.resolve? e.name.qualifier).filter fun uri => !uri.isEmpty
  /-- The qualifier of the element stands for something. -/
  bound : ∀ q, e.name.qualifier = some q → ∃ uri, n.Binds q uri
  attributes : ∀ a ∈ e.attributes, a.LookedUp n

theorem Node.binds_of_uriOf? {n : Node} {q uri : String}
    (h : uriOf? (n.tree.declarations :: n.context) (some q) = some uri) :
    n.Binds q uri := by
  rw [← filter_resolve?, Option.filter_eq_some_iff] at h
  obtain ⟨hfound, hfilled⟩ := h
  exact ⟨hfound, by simpa using hfilled⟩

theorem lookedUp_of_qualified? {n : Node} {a : Attribute}
    (h : qualified? (n.tree.declarations :: n.context) (a.name.text, a.value)
      = some a) : a.LookedUp n := by
  have hname : Name.ofText a.name.text = a.name := (name_of_qualified? h).symm
  unfold qualified? at h
  unfold Attribute.LookedUp
  simp only [hname, Bool.or_eq_true, decide_eq_true_eq] at h
  split at h
  · next hmarked =>
    rw [if_pos hmarked, ← Option.some.inj h]
  · next hmarked =>
    rw [if_neg hmarked]
    cases hq : a.name.qualifier with
    | none =>
      rw [hq] at h
      rw [← Option.some.inj h]
    | some q =>
      rw [hq] at h
      obtain ⟨uri, huri, ha⟩ := Option.map_eq_some_iff.1 h
      exact ⟨uri, Node.binds_of_uriOf? huri, by rw [← ha]⟩

theorem Node.declarations_of_element {n : Node} {e : Element}
    (h : n.element? = some e) : n.tree.declarations = e.declarations := by
  have hcontent : n.tree.content.element? = some e := h
  unfold Tree.declarations
  cases hc : n.tree.content with
  | element e' =>
    rw [hc] at hcontent
    cases hcontent
    rfl
  | _ =>
    rw [hc] at hcontent
    cases hcontent

/-- What is resolved in the context of a node is what is looked up from it. -/
theorem lookedUp_of_resolved {n : Node} {e : Element}
    (hn : n.element? = some e) (h : e.Resolved n.context) : e.LookedUp n := by
  obtain ⟨-, hown, huri, hbound, -⟩ := elementOf?_eq_some h.resolved
  have hdeclarations : n.tree.declarations = declared e.raw :=
    (Node.declarations_of_element hn).trans hown
  rw [← hdeclarations] at huri
  constructor
  case uri => rw [huri, n.filter_resolve?]
  case bound =>
    intro q hq
    obtain ⟨uri, hsome⟩ := Option.isSome_iff_exists.1 (hbound (by rw [hq]; rfl))
    rw [hsome, hq] at huri
    exact ⟨uri, Node.binds_of_uriOf? huri.symm⟩
  case attributes =>
    intro a ha
    refine lookedUp_of_qualified? ?_
    rw [hdeclarations]
    exact h.attribute ha

namespace Document

/-- In a document that is parsed, the namespaces that every element and its
attributes were given as the element began are those that are looked up from
its node. -/
theorem recorded_as_looked_up (origin : Origin) (source : String)
    (d : Document) (h : parse origin source = .ok d) :
    ∀ n ∈ d.nodes, ∀ e, n.element? = some e → e.LookedUp n := by
  intro n hn e he
  obtain ⟨-, hparse⟩ := tree_of_parse h
  refine lookedUp_of_resolved he ?_
  exact resolved_nodesOf d.origin [] d.root (Tree.built_of_parse hparse).tidy
    (Tree.resolved_of_parse hparse).1 n hn e he

/-- A source that shadows a qualifier and undeclares the default namespace. -/
def shadowedSource : String :=
  "<a xmlns='u' xmlns:p='v'><b xmlns='' p:x='' y=''><p:c xmlns:p='w'/></b></a>"

/-- The element of the source that the others lie in. -/
def shadowedRoot : Element :=
  ⟨.ofText "a", some "u",
    [⟨.ofText "xmlns", some declarationUri, "u"⟩,
      ⟨.ofText "xmlns:p", some declarationUri, "v"⟩],
    [(none, "u"), (some "p", "v")]⟩

/-- The document of that source. -/
def shadowed : Document where
  origin := .given 0
  root :=
    .node ⟨0, ⟨1, 1⟩, .document⟩
      [.node ⟨1, ⟨1, 1⟩, .element shadowedRoot⟩
        [.node ⟨2, ⟨1, 26⟩, .element
            ⟨.ofText "b", none,
              [⟨.ofText "xmlns", some declarationUri, ""⟩,
                ⟨.ofText "p:x", some "v", ""⟩, ⟨.ofText "y", none, ""⟩],
              [(none, "")]⟩⟩
          [.node ⟨3, ⟨1, 50⟩, .element
              ⟨.ofText "p:c", some "w",
                [⟨.ofText "xmlns:p", some declarationUri, "w"⟩],
                [(some "p", "w")]⟩⟩ []]]]

/-- The qualifier stands for what the innermost element declares, and for what
the outermost does on the element between; there the default namespace is
none. -/
theorem shadowed_looked_up :
    parse (.given 0) shadowedSource = .ok shadowed
    ∧ (∀ n ∈ shadowed.nodes, ∀ e, n.element? = some e → e.LookedUp n)
    ∧ (shadowed.nodes.map fun n => (n.resolve? none, n.resolve? (some "p")))
      = [(none, none), (some "u", some "v"), (some "", some "v"),
          (some "", some "w")] := by
  have h : parse (.given 0) shadowedSource = .ok shadowed := by
    with_unfolding_all rfl
  exact ⟨h, recorded_as_looked_up (.given 0) shadowedSource shadowed h,
    by decide +kernel⟩

end Document

end Stencil.Markup
