/-
The document that a source is parsed into.

Its nodes are numbered in document order, with the document itself as number
zero, so the nodes below any node have the numbers from its own on. Every
other node has one parent, of a smaller number, and stands once in the list of
its children and in no other list. Read off again, the document gives the
events of its source.
-/
import Stencil.Proofs.Markup.Flattening

namespace Stencil.Markup

-- ============================================================ nodes and trees

mutual

theorem children_subset_nodesOf (origin : Origin) :
    ∀ (trail : List Tree) (t : Tree), ∀ m ∈ nodesOf origin trail t,
      m.children ⊆ nodesOf origin trail t
  | trail, .node label ts, m, hm, c, hc => by
    refine List.mem_cons_of_mem _ ?_
    rcases List.mem_cons.1 hm with rfl | hm
    · obtain ⟨t, ht, rfl⟩ := List.mem_map.1 hc
      rw [nodesOfAll_eq]
      refine List.mem_flatMap.2 ⟨t, ht, ?_⟩
      obtain ⟨label, us⟩ := t
      exact List.mem_cons_self
    · exact children_subset_nodesOfAll origin _ ts m hm hc

theorem children_subset_nodesOfAll (origin : Origin) :
    ∀ (trail ts : List Tree), ∀ m ∈ nodesOfAll origin trail ts,
      m.children ⊆ nodesOfAll origin trail ts
  | trail, t :: ts, m, hm, c, hc => by
    rcases List.mem_append.1 hm with hm | hm
    · exact List.mem_append_left _
        (children_subset_nodesOf origin trail t m hm hc)
    · exact List.mem_append_right _
        (children_subset_nodesOfAll origin trail ts m hm hc)

end

namespace Node

/-- With a node its children are met. -/
theorem children_subset {n m : Node} (h : m ∈ n.nodes) :
    m.children ⊆ n.nodes :=
  children_subset_nodesOf n.origin n.trail n.tree m h

theorem map_id_children (n : Node) :
    n.children.map id = Tree.numbers n.tree.children := by
  unfold children
  rw [List.map_map]
  rfl

theorem map_id_nodes (n : Node) :
    n.nodes.map id = Tree.numbers n.tree.preorder := by
  rw [← n.map_tree_nodes, Tree.numbers, List.map_map]
  rfl

theorem length_nodes (n : Node) : n.nodes.length = n.tree.size := by
  rw [← Tree.length_preorder, ← n.map_tree_nodes, List.length_map]

/-- What holds of all trees in order holds of their nodes. -/
theorem isChain_children {R : Tree → Tree → Prop} {n : Node}
    (h : n.tree.children.IsChain R) :
    n.children.IsChain fun m k => R m.tree k.tree :=
  List.isChain_map_of_isChain n.below (fun _ _ hr => hr) h

theorem length_childElements (n : Node) :
    n.childElements.length = n.tree.children.countP Tree.isElement := by
  unfold childElements children
  rw [← List.countP_eq_length_filter, List.countP_map]
  rfl

theorem isText_iff {n : Node} : n.isText = true ↔ n.tree.IsText := by
  have hcontent : n.content = n.tree.content := rfl
  unfold isText Tree.IsText
  rw [hcontent]
  cases n.tree.content <;> simp

end Node

-- ================================================================= documents

namespace Document

/-- A document as a list of nodes in document order, each with the number of
its position. -/
structure Arena (d : Document) : Prop where
  /-- The nodes are all that can be met from the document node. -/
  closed : d.node ∈ d.nodes ∧ ∀ n ∈ d.nodes, n.children ⊆ d.nodes
  /-- The number of a node is its position. -/
  numbered : d.nodes.map Node.id = List.range d.nodes.length
  /-- The first node is the document, and no other is. -/
  document : d.nodes.head? = some d.node
    ∧ ∀ n ∈ d.nodes, n.content = .document ↔ n.id = 0
  /-- One child of the document is an element. -/
  root : d.node.childElements.length = 1
  /-- Every other node has a parent, and is a child of that node only. -/
  parent : ∀ n ∈ d.nodes, n.id ≠ 0 →
    ∃ p ∈ d.nodes, n.parent? = some p ∧ p.id < n.id ∧ n ∈ p.children
      ∧ ∀ q ∈ d.nodes, (q.children.map Node.id).count n.id
          = if q.id = p.id then 1 else 0
  /-- The numbers of children increase. -/
  increasing : ∀ n ∈ d.nodes, (n.children.map Node.id).Pairwise (· < ·)
  /-- The nodes from a node on down have the numbers from its own on. -/
  contiguous : ∀ n ∈ d.nodes,
    n.nodes.map Node.id = List.range' n.id n.nodes.length
  /-- Only the document and elements have children. -/
  leaves : ∀ n ∈ d.nodes, n.children ≠ [] →
    n.content = .document ∨ n.isElement = true
  /-- No text is empty. -/
  filled : ∀ n ∈ d.nodes, n.content ≠ .text ""
  /-- No two neighbours are texts. -/
  apart : ∀ n ∈ d.nodes,
    n.children.IsChain fun m k => ¬ (m.isText = true ∧ k.isText = true)

variable {d : Document}

/-- A node that is no document lies below one that has it as a child. -/
theorem exists_parent (h : d.root.Numbered) {n : Node} (hn : n ∈ d.nodes)
    (hne : n ≠ d.node) :
    ∃ p ∈ d.nodes, n.parent? = some p ∧ p.id < n.id ∧ n ∈ p.children
      ∧ ∀ q ∈ d.nodes, (q.children.map Node.id).count n.id
          = if q.id = p.id then 1 else 0 := by
  rcases Node.parent_of_mem hn with rfl | ⟨p, hp, hparent, hchild⟩
  · exact absurd rfl hne
  have hptree : p.tree ∈ d.root.preorder := Node.tree_mem hp
  have hctree : n.tree ∈ p.tree.children := by
    obtain ⟨t, ht, rfl⟩ := List.mem_map.1 hchild
    exact ht
  refine ⟨p, hp, hparent, (h.mem _ hptree).lt_of_mem hctree, hchild, ?_⟩
  intro q hq
  rw [q.map_id_children]
  exact h.count_child hptree (Node.tree_mem hq) hctree

theorem arena_of_built (h : d.root.Built) : d.Arena := by
  have hall {n : Node} (hn : n ∈ d.nodes) :
      n.tree.Numbered ∧ n.tree.Orderly :=
    ⟨h.numbered.mem _ (Node.tree_mem hn), h.tidy _ (Node.tree_mem hn)⟩
  have hfirst : d.nodes = d.node :: d.node.children.flatMap Node.nodes :=
    d.node.nodes_eq
  have hzero : d.node.id = 0 := h.number
  have hmem : d.node ∈ d.nodes := hfirst ▸ List.mem_cons_self
  have hcontiguous (n : Node) (hn : n ∈ d.nodes) :
      n.nodes.map Node.id = List.range' n.id n.nodes.length := by
    rw [n.map_id_nodes, n.length_nodes]
    exact (hall hn).1
  have hbelow (n : Node) (hn : n ∈ d.nodes) (hne : n ≠ d.node) :=
    exists_parent h.numbered hn hne
  refine ⟨⟨hmem, fun n hn => Node.children_subset hn⟩, ?_, ⟨?_, ?_⟩, ?_, ?_,
    ?_, hcontiguous, ?_, ?_, ?_⟩
  · rw [List.range_eq_range', ← hzero]
    exact hcontiguous d.node hmem
  · rw [hfirst, List.head?_cons]
  · intro n hn
    by_cases hne : n = d.node
    · rw [hne]
      exact iff_of_true h.content hzero
    -- any other node is a child, and no child is a document
    · obtain ⟨p, hp, -, hlt, hchild, -⟩ := hbelow n hn hne
      refine iff_of_false ?_ (by omega)
      obtain ⟨t, ht, rfl⟩ := List.mem_map.1 hchild
      exact (hall hp).2.below t ht
  · rw [Node.length_childElements]
    exact h.root
  · intro n hn hid
    exact hbelow n hn fun he => hid (he ▸ hzero)
  · intro n hn
    rw [n.map_id_children]
    exact (hall hn).1.increasing
  · intro n hn hchildren
    -- what holds children is a document or an element
    rcases (hall hn).2.leaf with hc | hc | hc
    · exact .inl hc
    · exact .inr hc
    · exact absurd (List.map_eq_nil_iff.2 hc) hchildren
  · exact fun n hn => (hall hn).2.filled
  · intro n hn
    refine (Node.isChain_children (hall hn).2.apart).imp ?_
    intro m k hapart hboth
    exact hapart (hboth.imp Node.isText_iff.1 Node.isText_iff.1)

namespace Arena

/-- Two nodes with one number are one. -/
theorem eq_of_id (h : d.Arena) {m n : Node} (hm : m ∈ d.nodes)
    (hn : n ∈ d.nodes) (hid : m.id = n.id) : m = n := by
  have hnodup : (d.nodes.map Node.id).Nodup := by
    rw [h.numbered]
    exact List.nodup_range
  exact List.inj_on_of_nodup_map hnodup hm hn hid

theorem eq_node (h : d.Arena) {n : Node} (hn : n ∈ d.nodes)
    (hcontent : n.content = .document) : n = d.node := by
  obtain ⟨rest, hrest⟩ := List.head?_eq_some_iff.1 h.document.1
  have hnumbered := h.numbered
  rw [hrest, List.map_cons, List.length_cons, List.range_succ_eq_map]
    at hnumbered
  have hzero : d.node.id = 0 := (List.cons.inj hnumbered).1
  refine h.eq_of_id hn h.closed.1 ?_
  rw [hzero, (h.document.2 n hn).1 hcontent]

/-- A node that is not the document is a child of one that has a smaller
number. -/
theorem exists_above (h : d.Arena) {n : Node} (hn : n ∈ d.nodes)
    (hcontent : n.content ≠ .document) :
    ∃ p ∈ d.nodes, n.parent? = some p ∧ p.id < n.id ∧ n ∈ p.children := by
  have hid : n.id ≠ 0 := fun hid => hcontent ((h.document.2 n hn).2 hid)
  obtain ⟨p, hp, hparent, hlt, hchild, -⟩ := h.parent n hn hid
  exact ⟨p, hp, hparent, hlt, hchild⟩

/-- The ancestors of a node are nodes of the document. -/
theorem lineage_subset (h : d.Arena) {n : Node} (hn : n ∈ d.nodes) :
    n.lineage ⊆ d.nodes := by
  obtain ⟨origin, tree, trail⟩ := n
  induction trail generalizing tree with
  | nil => exact List.cons_subset.2 ⟨hn, List.nil_subset _⟩
  | cons t ts ih =>
    refine List.cons_subset.2 ⟨hn, ?_⟩
    obtain ⟨p, hp, hparent, -⟩ := h.exists_above hn fun hcontent =>
      List.cons_ne_nil t ts (congrArg Node.trail (h.eq_node hn hcontent))
    cases hparent
    exact ih t hp

end Arena

/-- A source that is parsed gives a document numbered in document order, which
has the marks of the events of the source. -/
theorem parsed_in_order (origin : Origin) (source : String) (d : Document)
    (h : Document.parse origin source = .ok d) :
    d.Arena ∧ d.origin = origin ∧ (scan source.toList).failure = none
      ∧ (scan source.toList).marks? = some d.root.marks := by
  obtain ⟨horigin, ht⟩ := tree_of_parse h
  exact ⟨arena_of_built (Tree.built_of_parse ht), horigin,
    (Tree.parse_ok ht).1, Tree.marks_of_parse ht⟩

/-- A source with text, a reference and a section side by side, and white
space around the root. -/
def mixedSource : String := " <a x='&lt;'>t&amp;<![CDATA[]]>u<b/></a>\n"

/-- The document of that source. -/
def mixed : Document where
  origin := .given 0
  root :=
    .node ⟨0, ⟨1, 1⟩, .document⟩
      [.node ⟨1, ⟨1, 2⟩, .element
          ⟨.ofText "a", none, [⟨.ofText "x", none, "<"⟩], []⟩⟩
        [.node ⟨2, ⟨1, 14⟩, .text "t&"⟩ [],
          .node ⟨3, ⟨1, 20⟩, .cdata ""⟩ [],
          .node ⟨4, ⟨1, 32⟩, .text "u"⟩ [],
          .node ⟨5, ⟨1, 33⟩, .element ⟨.ofText "b", none, [], []⟩⟩ []]]

/-- Text and reference are joined, and what is around the root is left out. -/
theorem mixed_in_order :
    parse (.given 0) mixedSource = .ok mixed
    ∧ mixed.Arena
    ∧ (scan mixedSource.toList).marks?
      = some [.start "a" [("x", "<")], .text "t&", .cdata "", .text "u",
          .start "b" [], .stop "b", .stop "a"] := by
  have h : parse (.given 0) mixedSource = .ok mixed := by
    with_unfolding_all rfl
  obtain ⟨harena, -, -, hmarks⟩ :=
    parsed_in_order (.given 0) mixedSource mixed h
  exact ⟨h, harena, hmarks⟩

end Document

end Stencil.Markup
