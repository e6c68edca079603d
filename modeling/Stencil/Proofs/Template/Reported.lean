/-
What is reported of nodes that stand in the same place.

Two nodes match if they stand in the same place of documents that hold the
same; which documents may be taken for each other is for a relation `O` on
their origins to say.

A diagnostic is reported by its kind, its message, the message of its cause, the
attribute, the place in the source and the path through the document. The path
counts a node among its siblings, and there it is told from others of the same
document, so neither place nor path says which document it is: diagnostics at
matching nodes are reported alike (`Diagnostic.Alike.report`).
-/
import Stencil.Proofs.Template.Correspondence

namespace Stencil.Template

open Markup (Location Node Origin Tree)

variable {O : Origin → Origin → Prop} {n n' : Node}

-- =================================================================== nodes

/-- Nodes in the same place of documents that hold the same. -/
structure Matches (O : Origin → Origin → Prop) (n n' : Node) : Prop where
  origin : O n.origin n'.origin
  tree : n.tree = n'.tree
  trail : n.trail = n'.trail

namespace Matches

theorem refl (hO : ∀ o, O o o) (n : Node) : Matches O n n :=
  ⟨hO n.origin, rfl, rfl⟩

theorem label (h : Matches O n n') : n.label = n'.label :=
  congrArg Tree.label h.tree

theorem id (h : Matches O n n') : n.id = n'.id :=
  congrArg Markup.Label.id h.label

theorem place (h : Matches O n n') : n.place = n'.place :=
  congrArg Markup.Label.place h.label

theorem content (h : Matches O n n') : n.content = n'.content :=
  congrArg Tree.content h.tree

/-- The nodes of the same tree in matching nodes. -/
theorem below (h : Matches O n n') (t : Tree) :
    Matches O (n.below t) (n'.below t) := by
  refine ⟨h.origin, rfl, ?_⟩
  show n.tree :: n.trail = n'.tree :: n'.trail
  rw [h.tree, h.trail]

theorem children (h : Matches O n n') :
    List.Forall₂ (Matches O) n.children n'.children := by
  unfold Node.children
  rw [h.tree, List.forall₂_map_left_iff, List.forall₂_map_right_iff,
    List.forall₂_same]
  exact fun t _ => h.below t

theorem onTrail {o o' : Origin} (h : O o o') (trail : List Tree) :
    List.Forall₂ (Matches O) (Node.onTrail o trail)
      (Node.onTrail o' trail) := by
  induction trail with
  | nil => exact .nil
  | cons t ts ih => exact .cons ⟨h, rfl, rfl⟩ ih

theorem ancestors (h : Matches O n n') :
    List.Forall₂ (Matches O) n.ancestors n'.ancestors := by
  unfold Node.ancestors
  rw [h.trail]
  exact onTrail h.origin _

theorem lineage (h : Matches O n n') :
    List.Forall₂ (Matches O) n.lineage n'.lineage :=
  .cons h h.ancestors

theorem resolve? (h : Matches O n n') (q : Option String) :
    n.resolve? q = n'.resolve? q := by
  unfold Node.resolve?
  rw [findSome?_eq h.lineage fun m m' hm => ?_]
  unfold Node.declared? Node.element?
  rw [hm.content]

theorem isContentEmpty (h : Matches O n n') :
    n.isContentEmpty = n'.isContentEmpty := by
  unfold Node.isContentEmpty Node.children
  rw [h.tree, List.all_map, List.all_map]
  rfl

/-- Nodes in the same place hold the same. -/
instance : Likeness (Matches O) where
  content := content
  isContentEmpty := isContentEmpty
  resolve? := resolve?

theorem descends (uri : String) : Descends uri (Matches O) :=
  .of_children uri fun _ _ h => h.children

theorem isCharacters (h : Matches O n n') :
    Diagnostic.isCharacters n = Diagnostic.isCharacters n' :=
  congrArg (fun c : Markup.Content => c.characters?.isSome) h.content

end Matches

-- =================================================================== paths

/-- As many come first that a test accepts, if the test is the same. -/
theorem length_takeWhile_eq {α β : Type} {Q : α → β → Prop} {as : List α}
    {bs : List β} {p : α → Bool} {p' : β → Bool} (h : List.Forall₂ Q as bs)
    (hp : ∀ a b, Q a b → p a = p' b) :
    (as.takeWhile p).length = (bs.takeWhile p').length := by
  induction h with
  | nil => rfl
  | @cons a b as bs hab _ ih =>
    rw [List.takeWhile_cons, List.takeWhile_cons, hp a b hab]
    cases p' b with
    | true => exact congrArg (· + 1) ih
    | false => rfl

/-- Matching nodes have the same position among their siblings. Those are of
the documents that the nodes are of, so only their numbers tell them apart. -/
theorem ordinal_eq (h : Matches O n n') {like like' : Node → Bool}
    (hlike : ∀ m m', Matches O m m' → like m = like' m') :
    Diagnostic.ordinal n like = Diagnostic.ordinal n' like' := by
  obtain ⟨o, t, trail⟩ := n
  obtain ⟨o', t', trail'⟩ := n'
  obtain ⟨horigin, rfl, rfl⟩ := h
  cases trail with
  | nil => rfl
  | cons p ps =>
    have hparent : Matches O ⟨o, p, ps⟩ ⟨o', p, ps⟩ := ⟨horigin, rfl, rfl⟩
    have hsiblings : List.Forall₂
        (fun m m' => Matches O m m' ∧ m.origin = o ∧ m'.origin = o')
        (Node.children ⟨o, p, ps⟩) (Node.children ⟨o', p, ps⟩) := by
      unfold Node.children
      rw [List.forall₂_map_left_iff, List.forall₂_map_right_iff,
        List.forall₂_same]
      exact fun u _ => ⟨hparent.below u, rfl, rfl⟩
    have halike := List.rel_filter (p := like) (q := like')
      (fun m m' hm => iff_of_eq (congrArg (· = true) (hlike m m' hm.1)))
      hsiblings
    -- siblings that match have the same numbers, so the node is found as late
    have hsame : ∀ m m', Matches O m m' ∧ m.origin = o ∧ m'.origin = o' →
        (!m.same ⟨o, t, p :: ps⟩) = !m'.same ⟨o', t, p :: ps⟩ := by
      rintro m m' ⟨hm, ho, ho'⟩
      unfold Node.same
      rw [ho, ho', hm.id, beq_self_eq_true, beq_self_eq_true]
      rfl
    have hbefore := length_takeWhile_eq halike hsame
    unfold Diagnostic.ordinal Node.parent?
    dsimp only
    rw [Likeness.isElement hparent, halike.length_eq, hbefore]

theorem elementStep_eq (h : Matches O n n') :
    Diagnostic.elementStep n = Diagnostic.elementStep n' := by
  have hordinal (tag : String) :
      (Diagnostic.ordinal n fun m => m.tag? == some tag)
        = Diagnostic.ordinal n' fun m => m.tag? == some tag :=
    ordinal_eq h fun m m' hm => by rw [Likeness.tag? hm]
  unfold Diagnostic.elementStep
  dsimp only
  rw [Likeness.tag? h, Likeness.attribute? h, hordinal]

theorem stepsUp_eq {ns ns' : List Node} (h : List.Forall₂ (Matches O) ns ns') :
    Diagnostic.stepsUp ns = Diagnostic.stepsUp ns' := by
  unfold Diagnostic.stepsUp
  induction h with
  | nil => rfl
  | @cons m m' ms ms' hm _ ih =>
    rw [List.takeWhile_cons, List.takeWhile_cons, Likeness.isElement hm]
    cases m'.isElement with
    | true =>
      simp only [if_true, List.map_cons]
      rw [elementStep_eq hm, ih]
    | false => rfl

theorem steps_eq (h : Matches O n n') (attr : Option String) :
    Diagnostic.steps n attr = Diagnostic.steps n' attr := by
  unfold Diagnostic.steps
  rw [stepsUp_eq h.lineage, stepsUp_eq h.ancestors, h.isCharacters,
    ordinal_eq h fun m m' hm => hm.isCharacters]

-- ================================================================= reports

/-- What is told of a diagnostic. -/
structure Diagnostic.Report where
  kind : DiagnosticKind
  message : String
  cause : Option String
  attr : Option String
  place : Option Location
  path : Option String
deriving DecidableEq

def Diagnostic.report (d : Diagnostic) : Diagnostic.Report :=
  ⟨d.kind, d.message, d.reason.cause?, d.attr, d.place?, d.path?⟩

/-- It cannot be told from a report which of the documents a node is of. -/
theorem Diagnostic.Alike.report {d d' : Diagnostic}
    (h : d.Alike (Template.Matches O) d') : d.report = d'.report := by
  obtain ⟨reason, node, attr⟩ := d
  obtain ⟨reason', node', attr'⟩ := d'
  obtain ⟨rfl, rfl, hnode⟩ := h
  cases hnode with
  | none => rfl
  | @some m m' hm =>
    unfold Diagnostic.report Diagnostic.place? Diagnostic.path?
    dsimp only [Option.map_some]
    rw [hm.place, steps_eq hm]
    rfl

end Stencil.Template
