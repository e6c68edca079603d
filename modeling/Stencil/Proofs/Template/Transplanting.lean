/-
Trees in other places.

A tree may be hung into another element that holds the same as the one it was
in, under other ancestors that hold the same as those it had. It is told where
it is by its trail only, and what is read of a trail is what qualifiers stand
for there, so the nodes of the tree are alike in both places. The tree itself
may be replaced by one that counts for the same, if that is so for the trees in
it as well.
-/
import Stencil.Proofs.Template.Interchange

namespace Stencil.Template

open Markup (Node Origin Tree)

-- =================================================================== places

/-- What a qualifier stands for is a matter of what the node and its ancestors
hold. -/
theorem findSome?_onTrail (origin : Origin) (trail : List Tree)
    (q : Option String) :
    (Node.onTrail origin trail).findSome? (·.declared? q)
      = (trail.map Tree.content).findSome? fun c =>
          c.element?.bind fun e => e.declarations.find? q := by
  induction trail with
  | nil => rfl
  | cons t ts ih =>
    rw [Node.onTrail, List.map_cons, List.findSome?_cons, List.findSome?_cons,
      ih]
    rfl

/-- Nodes that hold the same, in elements that do. -/
def SamePlace (n n' : Node) : Prop :=
  (n.tree :: n.trail).map Tree.content = (n'.tree :: n'.trail).map Tree.content

/-- In such places qualifiers stand for the same. -/
theorem SamePlace.resolve? {n n' : Node} (h : SamePlace n n')
    (q : Option String) : n.resolve? q = n'.resolve? q := by
  have lineage (n : Node) :
      n.lineage = Node.onTrail n.origin (n.tree :: n.trail) := rfl
  have hcontents : (n.tree :: n.trail).map Tree.content
      = (n'.tree :: n'.trail).map Tree.content := h
  unfold Node.resolve?
  rw [lineage, lineage, findSome?_onTrail, findSome?_onTrail, hcontents]

theorem SamePlace.content {n n' : Node} (h : SamePlace n n') :
    n.content = n'.content :=
  (List.cons.inj h).1

theorem SamePlace.ofNode? {n n' : Node} (h : SamePlace n n') (uri : String) :
    Directive.ofNode? uri n = Directive.ofNode? uri n' := by
  have element : n.element? = n'.element? :=
    congrArg Markup.Content.element? h.content
  unfold Directive.ofNode?
  rw [element]

/-- Nodes whose trees count for the same, in elements that hold the same. -/
structure Transplanted (T : Tree → Tree → Prop) (n n' : Node) : Prop where
  tree : T n.tree n'.tree
  around : n.trail.map Tree.content = n'.trail.map Tree.content

/-- Trees of the same content, with something in both of them or in neither. -/
class TreeLikeness (T : Tree → Tree → Prop) : Prop where
  content {t t' : Tree} (h : T t t') : t.content = t'.content
  allInsignificant {t t' : Tree} (h : T t t') :
    t.children.all Tree.isInsignificant
      = t'.children.all Tree.isInsignificant

instance : TreeLikeness (· = ·) where
  content h := h ▸ rfl
  allInsignificant h := h ▸ rfl

namespace Transplanted

variable {T : Tree → Tree → Prop} {n n' : Node}

theorem isContentEmpty_eq (n : Node) :
    n.isContentEmpty = n.tree.children.all Tree.isInsignificant := by
  unfold Node.isContentEmpty Node.children
  rw [List.all_map]
  rfl

theorem place [TreeLikeness T] (h : Transplanted T n n') : SamePlace n n' := by
  unfold SamePlace
  rw [List.map_cons, List.map_cons, TreeLikeness.content h.tree, h.around]

instance [TreeLikeness T] : Likeness (Transplanted T) where
  content h := TreeLikeness.content h.tree
  isContentEmpty h := by
    rw [isContentEmpty_eq, isContentEmpty_eq]
    exact TreeLikeness.allInsignificant h.tree
  resolve? h := h.place.resolve?

/-- The nodes of trees that count for the same, one by one. -/
theorem below (h : SamePlace n n') {ts ts' : List Tree}
    (hts : List.Forall₂ T ts ts') :
    List.Forall₂ (Transplanted T) (ts.map n.below) (ts'.map n'.below) := by
  rw [List.forall₂_map_left_iff, List.forall₂_map_right_iff]
  exact hts.imp fun _ _ ht => ⟨ht, h⟩

end Transplanted

-- ============================================================= the same tree

/-- Nodes of the same tree. -/
abbrev SameTree : Node → Node → Prop := Transplanted (· = ·)

theorem sameTree_self (n : Node) : SameTree n n := ⟨rfl, rfl⟩

theorem descends_sameTree (uri : String) : Descends uri SameTree := by
  refine .of_children uri fun n n' h => ?_
  have trees : List.Forall₂ (· = ·) n.tree.children n'.tree.children :=
    h.tree ▸ List.forall₂_same.2 fun _ _ => rfl
  exact Transplanted.below h.place trees

/-- Trees may be hung into other places that hold the same. -/
def elsewhere : Interchange := .ofNodes SameTree sameTree_self

theorem serves_elsewhere (uri : String) (source : Loading.Source) :
    elsewhere.Serves uri source :=
  serves_ofNodes sameTree_self (descends_sameTree uri)

/-- The nodes of the same trees, in two places that hold the same. -/
theorem sameTree_below {n n' : Node} (h : SamePlace n n') (ts : List Tree) :
    List.Forall₂ SameTree (ts.map n.below) (ts.map n'.below) :=
  Transplanted.below h (List.forall₂_same.2 fun _ _ => rfl)

end Stencil.Template
