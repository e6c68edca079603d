/-
Trees that are numbered in document order.

If the nodes of a tree, the node itself first and then those of its children
from left to right, have the numbers from some first one on, then the same
holds of every tree in it: its nodes have the numbers from its own on. So the
numbers of children increase, and no number stands in two lists of children.

`Node.nodes` lists the nodes of a tree as navigation meets them, each with the
nodes around it; every one but the first is a child of another.
-/
import Mathlib.Data.List.Nodup
import Mathlib.Data.List.Pairwise
import Stencil.Markup.Node

namespace Stencil.Markup

namespace Tree

-- ==================================================== lists in document order

theorem preorders_append (ts us : List Tree) :
    preorders (ts ++ us) = preorders ts ++ preorders us := by
  induction ts with
  | nil => rfl
  | cons t ts ih => simp only [List.cons_append, preorders, ih,
      List.append_assoc]

theorem mem_preorders {u : Tree} {ts : List Tree} :
    u ∈ preorders ts ↔ ∃ t ∈ ts, u ∈ t.preorder := by
  induction ts with
  | nil => simp [preorders]
  | cons t ts ih => simp [preorders, ih]

theorem mem_preorder {t u v : Tree} (hu : u ∈ t.children)
    (hv : v ∈ u.preorder) : v ∈ t.preorder := by
  cases t
  exact List.mem_cons_of_mem _ (mem_preorders.2 ⟨u, hu, hv⟩)

mutual

theorem length_preorder : ∀ t : Tree, t.preorder.length = t.size
  | .node _ ts => by
    rw [preorder, size, List.length_cons, length_preorders ts]

theorem length_preorders : ∀ ts : List Tree, (preorders ts).length = sizes ts
  | [] => rfl
  | t :: ts => by
    rw [preorders, sizes, List.length_append, length_preorder t,
      length_preorders ts]

end

/-- Trees come among all below them in their order. -/
theorem sublist_preorders (ts : List Tree) : ts.Sublist (preorders ts) := by
  induction ts with
  | nil => exact .slnil
  | cons t ts ih =>
    obtain ⟨label, us⟩ := t
    exact (ih.trans (List.sublist_append_right _ _)).cons_cons _

-- ================================================================= numbers

/-- The numbers of some trees. -/
def numbers (ts : List Tree) : List Nat := ts.map fun t => t.label.id

theorem numbers_append (ts us : List Tree) :
    numbers (ts ++ us) = numbers ts ++ numbers us :=
  List.map_append

/-- The nodes of a tree have the numbers from its own on. -/
def Numbered (t : Tree) : Prop :=
  numbers t.preorder = List.range' t.label.id t.size

/-- The nodes of trees in order have the numbers from `k` on. -/
def NumberedFrom (k : Nat) (ts : List Tree) : Prop :=
  numbers (preorders ts) = List.range' k (sizes ts)

theorem Numbered.children {t : Tree} (h : t.Numbered) :
    NumberedFrom (t.label.id + 1) t.children := by
  obtain ⟨label, ts⟩ := t
  unfold Numbered at h
  rw [preorder, size, List.range'_succ] at h
  exact (List.cons.inj h).2

theorem NumberedFrom.head {k : Nat} {t : Tree} {ts : List Tree}
    (h : NumberedFrom k (t :: ts)) : t.Numbered ∧ t.label.id = k := by
  obtain ⟨label, us⟩ := t
  unfold NumberedFrom at h
  rw [preorders, numbers_append, sizes, List.range'_append_1.symm] at h
  have hlength : (numbers (Tree.node label us).preorder).length
      = (List.range' k (Tree.node label us).size).length := by
    rw [numbers, List.length_map, length_preorder, List.length_range']
  have hfirst := (List.append_inj h hlength).1
  have hid : label.id = k := by
    rw [preorder, size, List.range'_succ] at hfirst
    exact (List.cons.inj hfirst).1
  refine ⟨?_, hid⟩
  unfold Numbered
  rw [hfirst]
  show _ = List.range' label.id _
  rw [hid]

theorem NumberedFrom.tail {k : Nat} {t : Tree} {ts : List Tree}
    (h : NumberedFrom k (t :: ts)) : NumberedFrom (k + t.size) ts := by
  unfold NumberedFrom at h
  rw [preorders, numbers_append, sizes, List.range'_append_1.symm] at h
  refine (List.append_inj h ?_).2
  rw [numbers, List.length_map, length_preorder, List.length_range']

mutual

/-- What is numbered in document order is so in every part. -/
theorem Numbered.mem : ∀ {t : Tree}, t.Numbered → ∀ u ∈ t.preorder, u.Numbered
  | .node _ _, h, u, hu => by
    rcases List.mem_cons.1 hu with rfl | hu
    · exact h
    · exact NumberedFrom.mem h.children u hu

theorem NumberedFrom.mem : ∀ {k : Nat} {ts : List Tree}, NumberedFrom k ts →
    ∀ u ∈ preorders ts, u.Numbered
  | _, [], _, u, hu => absurd hu List.not_mem_nil
  | _, _ :: _, h, u, hu => by
    rcases List.mem_append.1 hu with hu | hu
    · exact Numbered.mem h.head.1 u hu
    · exact NumberedFrom.mem h.tail u hu

end

theorem NumberedFrom.pairwise {k : Nat} {ts : List Tree}
    (h : NumberedFrom k ts) : (numbers (preorders ts)).Pairwise (· < ·) := by
  rw [h]
  exact List.pairwise_lt_range' 1

/-- The numbers of children increase. -/
theorem Numbered.increasing {t : Tree} (h : t.Numbered) :
    (numbers t.children).Pairwise (· < ·) :=
  h.children.pairwise.sublist ((sublist_preorders t.children).map _)

/-- A child has a greater number than its parent. -/
theorem Numbered.lt_of_mem {t u : Tree} (h : t.Numbered)
    (hu : u ∈ t.children) : t.label.id < u.label.id := by
  have hmem : u.label.id ∈ numbers (preorders t.children) :=
    List.mem_map_of_mem ((sublist_preorders t.children).subset hu)
  rw [h.children] at hmem
  have := (List.mem_range'_1.1 hmem).1
  omega

-- =========================================================== lists of children

mutual

/-- All nodes but the first of a tree are its children, and the children of
those. -/
theorem perm_preorder : ∀ t : Tree,
    (t.preorder.flatMap children).Perm (preorders t.children)
  | .node _ ts => perm_preorders ts

theorem perm_preorders : ∀ ts : List Tree,
    (ts ++ (preorders ts).flatMap children).Perm (preorders ts)
  | [] => .nil
  | .node label us :: ts => by
    have hhead := perm_preorder (.node label us)
    have htail := perm_preorders ts
    rw [preorders, List.flatMap_append, List.cons_append, preorder,
      List.cons_append]
    refine List.Perm.cons _ ?_
    -- the other trees move behind the children in the first
    calc
      ts ++ (((Tree.node label us) :: preorders us).flatMap children
          ++ (preorders ts).flatMap children)
      _ = (ts ++ (Tree.node label us).preorder.flatMap children)
          ++ (preorders ts).flatMap children := (List.append_assoc ..).symm
      _ |>.Perm (((Tree.node label us).preorder.flatMap children ++ ts)
          ++ (preorders ts).flatMap children) :=
        List.perm_append_comm.append_right _
      _ = (Tree.node label us).preorder.flatMap children
          ++ (ts ++ (preorders ts).flatMap children) := List.append_assoc ..
      _ |>.Perm (preorders us ++ preorders ts) := hhead.append htail

end

/-- No number stands twice in the lists of children of a tree. -/
theorem Numbered.nodup_children {t : Tree} (h : t.Numbered) :
    (t.preorder.flatMap fun u => numbers u.children).Nodup := by
  have hperm := (perm_preorder t).map fun u => u.label.id
  rw [List.map_flatMap] at hperm
  refine hperm.nodup_iff.2 ?_
  exact h.children.pairwise.imp Nat.ne_of_lt

theorem Numbered.nodup {t : Tree} (h : t.Numbered) :
    (numbers t.preorder).Nodup := by
  rw [h]
  exact List.nodup_range'

/-- A child stands once in the list of its parent, and in no other. -/
theorem Numbered.count_child {t p q c : Tree} (h : t.Numbered)
    (hp : p ∈ t.preorder) (hq : q ∈ t.preorder) (hc : c ∈ p.children) :
    (numbers q.children).count c.label.id
      = if q.label.id = p.label.id then 1 else 0 := by
  obtain ⟨hnodup, hdisjoint⟩ := List.nodup_flatMap.1 h.nodup_children
  have hmem : c.label.id ∈ numbers p.children := List.mem_map_of_mem hc
  split
  · next hid =>
    have hqp : q = p := List.inj_on_of_nodup_map h.nodup hq hp hid
    rw [hqp]
    exact List.count_eq_one_of_mem (hnodup p hp) hmem
  · next hid =>
    have hne : p ≠ q := fun hpq => hid (hpq ▸ rfl)
    have : Std.Symm (Function.onFun List.Disjoint
        fun u : Tree => numbers u.children) := ⟨fun _ _ hd _ h h' => hd h' h⟩
    have happart := hdisjoint.forall hp hq hne
    exact List.count_eq_zero.2 fun hmem' => happart hmem hmem'

end Tree

-- ==================================================================== nodes

mutual

/-- The nodes of a tree that lies in the trees of a trail. -/
def nodesOf (origin : Origin) (trail : List Tree) : Tree → List Node
  | .node label ts =>
    ⟨origin, .node label ts, trail⟩
      :: nodesOfAll origin (.node label ts :: trail) ts

def nodesOfAll (origin : Origin) (trail : List Tree) :
    List Tree → List Node
  | [] => []
  | t :: ts => nodesOf origin trail t ++ nodesOfAll origin trail ts

end

/-- A node and all below it, in document order. -/
def Node.nodes (n : Node) : List Node := nodesOf n.origin n.trail n.tree

def Document.nodes (d : Document) : List Node := d.node.nodes

theorem nodesOfAll_eq (origin : Origin) (trail : List Tree) (ts : List Tree) :
    nodesOfAll origin trail ts
      = ts.flatMap fun t => nodesOf origin trail t := by
  induction ts with
  | nil => rfl
  | cons t ts ih => rw [nodesOfAll, ih, List.flatMap_cons]

/-- Navigation meets a node first, and then the nodes of its children. -/
theorem Node.nodes_eq (n : Node) :
    n.nodes = n :: n.children.flatMap Node.nodes := by
  obtain ⟨origin, ⟨label, ts⟩, trail⟩ := n
  show nodesOf origin trail (.node label ts) = _
  rw [nodesOf, nodesOfAll_eq, Node.children, List.flatMap_map]
  rfl

mutual

theorem map_tree_nodesOf (origin : Origin) : ∀ (trail : List Tree) (t : Tree),
    (nodesOf origin trail t).map Node.tree = t.preorder
  | trail, .node label ts => by
    rw [nodesOf, Tree.preorder, List.map_cons, map_tree_nodesOfAll]

theorem map_tree_nodesOfAll (origin : Origin) :
    ∀ (trail ts : List Tree),
      (nodesOfAll origin trail ts).map Node.tree = Tree.preorders ts
  | _, [] => rfl
  | trail, t :: ts => by
    rw [nodesOfAll, Tree.preorders, List.map_append, map_tree_nodesOf,
      map_tree_nodesOfAll]

end

theorem Node.map_tree_nodes (n : Node) :
    n.nodes.map Node.tree = n.tree.preorder :=
  map_tree_nodesOf n.origin n.trail n.tree

/-- A node's tree is among those of the document. -/
theorem Node.tree_mem {n m : Node} (h : m ∈ n.nodes) :
    m.tree ∈ n.tree.preorder := by
  rw [← n.map_tree_nodes]
  exact List.mem_map_of_mem h

mutual

theorem parent_of_mem_nodesOf (origin : Origin) :
    ∀ (trail : List Tree) (t : Tree), ∀ m ∈ nodesOf origin trail t,
      m = ⟨origin, t, trail⟩
        ∨ ∃ p ∈ nodesOf origin trail t, m.parent? = some p ∧ m ∈ p.children
  | trail, .node label ts, m, hm => by
    rcases List.mem_cons.1 hm with rfl | hm
    · exact .inl rfl
    refine .inr ?_
    rcases parent_of_mem_nodesOfAll origin _ ts m hm with
      ⟨u, hu, rfl⟩ | ⟨p, hp, hparent⟩
    · exact ⟨_, List.mem_cons_self, rfl, List.mem_map_of_mem hu⟩
    · exact ⟨p, List.mem_cons_of_mem _ hp, hparent⟩

theorem parent_of_mem_nodesOfAll (origin : Origin) :
    ∀ (trail ts : List Tree), ∀ m ∈ nodesOfAll origin trail ts,
      (∃ u ∈ ts, m = ⟨origin, u, trail⟩)
        ∨ ∃ p ∈ nodesOfAll origin trail ts,
          m.parent? = some p ∧ m ∈ p.children
  | trail, t :: ts, m, hm => by
    rcases List.mem_append.1 hm with hm | hm
    · rcases parent_of_mem_nodesOf origin trail t m hm with
        rfl | ⟨p, hp, hparent⟩
      · exact .inl ⟨t, List.mem_cons_self, rfl⟩
      · exact .inr ⟨p, List.mem_append_left _ hp, hparent⟩
    · rcases parent_of_mem_nodesOfAll origin trail ts m hm with
        ⟨u, hu, rfl⟩ | ⟨p, hp, hparent⟩
      · exact .inl ⟨u, List.mem_cons_of_mem _ hu, rfl⟩
      · exact .inr ⟨p, List.mem_append_right _ hp, hparent⟩

end

/-- A node that is met below another is a child of one that is met too. -/
theorem Node.parent_of_mem {n m : Node} (h : m ∈ n.nodes) :
    m = n ∨ ∃ p ∈ n.nodes, m.parent? = some p ∧ m ∈ p.children :=
  parent_of_mem_nodesOf n.origin n.trail n.tree m h

-- =============================================================== throughout

/-- All nodes of a tree have contents of which `P` holds. -/
def Tree.Throughout (P : Content → Prop) (t : Tree) : Prop :=
  ∀ u ∈ t.preorder, P u.content

theorem Tree.throughout_node {P : Content → Prop} {label : Label}
    {ts : List Tree} :
    (Tree.node label ts).Throughout P
      ↔ P label.content ∧ ∀ t ∈ ts, t.Throughout P := by
  unfold Throughout
  rw [preorder, List.forall_mem_cons]
  refine and_congr_right fun _ => ⟨fun h t ht u hu => ?_, fun h u hu => ?_⟩
  · exact h u (mem_preorders.2 ⟨t, ht, hu⟩)
  · obtain ⟨t, ht, hu⟩ := mem_preorders.1 hu
    exact h t ht u hu

theorem Tree.Throughout.self {P : Content → Prop} {t : Tree}
    (h : t.Throughout P) : P t.content := by
  cases t
  exact (throughout_node.1 h).1

theorem Tree.Throughout.child {P : Content → Prop} {t u : Tree}
    (h : t.Throughout P) (hu : u ∈ t.children) : u.Throughout P :=
  fun v hv => h v (mem_preorder hu hv)

/-- The nodes of a document have the contents of its trees. -/
theorem Document.forall_content {P : Content → Prop} {d : Document} :
    (∀ n ∈ d.nodes, P n.content) ↔ d.root.Throughout P := by
  show (∀ n ∈ d.node.nodes, _) ↔ ∀ u ∈ d.node.tree.preorder, _
  rw [← d.node.map_tree_nodes, List.forall_mem_map]
  rfl

end Stencil.Markup
