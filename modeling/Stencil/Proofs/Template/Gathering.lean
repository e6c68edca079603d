/-
Macros and the contents around them.

Before contents are processed, the macros among them are defined, in order; in
its place a macro then does nothing. Where the ends of contents are not trimmed,
nothing else depends on what stands next to what. So it is all one how the
macros are spread over the other contents (`macros_commute`).
-/
import Stencil.Proofs.Output.Delivery
import Stencil.Proofs.Template.Processors
import Stencil.Proofs.Template.Transplanting

namespace Stencil.Template

open Markup (Content Label Node Origin Tree)

variable {σ : Type} {uri : String} {ts ts' : List Tree}

/-- The tree is that of a macro. -/
def macroTree (uri : String) (t : Tree) : Bool :=
  isMacro uri ⟨.given 0, t, []⟩

/-- The macros among the children are those among their trees. -/
theorem macros_children (uri : String) (n : Node) :
    n.children.filter (isMacro uri)
      = (n.tree.children.filter (macroTree uri)).map n.below := by
  unfold Node.children
  rw [List.filter_map]
  rfl

theorem others_children (uri : String) (n : Node) :
    (n.children.filter fun child => !isMacro uri child)
      = (n.tree.children.filter fun t => !macroTree uri t).map n.below := by
  unfold Node.children
  rw [List.filter_map]
  rfl

/-- It makes no difference where among the other contents of an element its
macros are: with the same macros and the same other contents, each in the same
order, contents that are not trimmed end alike from the same machine on,
whatever the output and however much may still be opened. -/
theorem macros_commute (s : Settings σ) (room : Nat) (origin : Origin)
    (label : Label) (trail : List Tree)
    (macros : ts.filter (macroTree s.uri) = ts'.filter (macroTree s.uri))
    (others : (ts.filter fun t => !macroTree s.uri t)
      = ts'.filter fun t => !macroTree s.uri t) (m : Machine σ) :
    EndsAlike elsewhere
      (contents s (inner? s room) false ⟨origin, .node label ts, trail⟩ m)
      (contents s (inner? s room) false ⟨origin, .node label ts', trail⟩
        m) := by
  have c := runsAlike_congruence (serves_elsewhere s.uri s.source)
  have place : SamePlace ⟨origin, .node label ts, trail⟩
      ⟨origin, .node label ts', trail⟩ := rfl
  refine c.contents (c.inner room) ?_ ?_ m m (m.alike_same sameTree_self)
  · rw [macros_children, macros_children]
    show List.Forall₂ SameTree ((ts.filter _).map _) ((ts'.filter _).map _)
    rw [macros]
    exact sameTree_below place _
  · rw [others_children, others_children]
    show List.Forall₂ SameTree ((ts.filter _).map _) ((ts'.filter _).map _)
    rw [others]
    exact sameTree_below place _

/-- A macro, and a call of it. -/
def macroOf (name text : String) : Tree :=
  .node ⟨3, ⟨3, 1⟩, .element ⟨.ofText "macro", some "x",
    [⟨.ofText "name", none, name⟩], []⟩⟩ [.node ⟨4, ⟨3, 9⟩, .text text⟩ []]

def callOf (name : String) : Tree :=
  .node ⟨2, ⟨2, 1⟩, .element ⟨.ofText "call", some "x",
    [⟨.ofText "name", none, name⟩], []⟩⟩ []

/-- A call may stand in front of the macro, or behind it. -/
theorem macros_commute_called :
    let s : Settings (List Output.Event) :=
      ⟨"x", Output.Sink.log, .memory [], 0⟩
    let label : Label := ⟨1, ⟨1, 1⟩, .element ⟨.ofText "p", none, [], []⟩⟩
    let ts := [callOf "m", macroOf "m" "hello"]
    let ts' := [macroOf "m" "hello", callOf "m"]
    let anchor : Node := ⟨.given 0, .node label ts, []⟩
    let m : Machine (List Output.Event) :=
      ⟨.single (.fresh anchor none), 0, .empty, []⟩
    ts.filter (macroTree s.uri) = ts'.filter (macroTree s.uri)
    ∧ (ts.filter fun t => !macroTree s.uri t)
      = (ts'.filter fun t => !macroTree s.uri t)
    ∧ EndsAlike elsewhere (contents s (inner? s 1) false anchor m)
      (contents s (inner? s 1) false ⟨.given 0, .node label ts', []⟩ m)
    ∧ (after (contents s (inner? s 1) false anchor) m).output
      = [.characters "hello"] := by
  intro s label ts ts' anchor m
  have macros : ts.filter (macroTree s.uri) = ts'.filter (macroTree s.uri) :=
    rfl
  have others : (ts.filter fun t => !macroTree s.uri t)
      = ts'.filter fun t => !macroTree s.uri t := rfl
  exact ⟨macros, others,
    macros_commute s 1 (.given 0) label [] macros others m, by decide +kernel⟩

-- ============================================================ whole templates

/-- The contents of the tree are not trimmed: it is a literal element or a
template element. -/
def isLoose (uri : String) (t : Tree) : Bool :=
  t.isElement
    && (Directive.ofNode? uri ⟨.given 0, t, []⟩).all (· == .template)

/-- The macros first, and then what is between them. -/
def gather (uri : String) (ts : List Tree) : List Tree :=
  ts.filter (macroTree uri) ++ ts.filter fun t => !macroTree uri t

mutual

/-- What a tree holds, with the macros gathered in front wherever contents are
not trimmed. -/
def gathered (uri : String) : Tree → Tree
  | .node label ts =>
    .node ⟨0, ⟨1, 1⟩, label.content⟩
      (if isLoose uri (.node label ts) then gather uri (allGathered uri ts)
        else allGathered uri ts)

def allGathered (uri : String) : List Tree → List Tree
  | [] => []
  | t :: ts => gathered uri t :: allGathered uri ts

end

theorem allGathered_eq_map (uri : String) (ts : List Tree) :
    allGathered uri ts = ts.map (gathered uri) := by
  induction ts with
  | nil => rfl
  | cons t ts ih => rw [allGathered, ih, List.map_cons]

theorem content_gathered (uri : String) (t : Tree) :
    (gathered uri t).content = t.content := by
  cases t
  rfl

theorem macroTree_gathered (uri : String) (t : Tree) :
    macroTree uri (gathered uri t) = macroTree uri t := by
  cases t
  rfl

theorem isInsignificant_gathered (uri : String) (t : Tree) :
    (gathered uri t).isInsignificant = t.isInsignificant := by
  unfold Markup.Tree.isInsignificant
  rw [content_gathered]

/-- To gather macros changes the order of trees only. -/
theorem gather_perm (uri : String) (ts : List Tree) :
    (gather uri ts).Perm ts :=
  List.filter_append_perm (macroTree uri) ts

/-- The macros among gathered trees are as they were. -/
theorem filter_gathered (uri : String) (ts : List Tree) :
    (allGathered uri ts).filter (macroTree uri)
      = (ts.filter (macroTree uri)).map (gathered uri) := by
  rw [allGathered_eq_map, List.filter_map]
  congr 2
  funext t
  exact macroTree_gathered uri t

theorem filter_others_gathered (uri : String) (ts : List Tree) :
    ((allGathered uri ts).filter fun t => !macroTree uri t)
      = (ts.filter fun t => !macroTree uri t).map (gathered uri) := by
  rw [allGathered_eq_map, List.filter_map]
  congr 2
  funext t
  exact congrArg (!·) (macroTree_gathered uri t)

/-- Trees that are the same when their macros are gathered. -/
def Regrouped (uri : String) (t t' : Tree) : Prop :=
  gathered uri t = gathered uri t'

/-- What is inside a gathered tree is what was inside it, gathered. -/
theorem children_gathered (uri : String) (t : Tree) :
    (gathered uri t).children
      = if isLoose uri t then gather uri (allGathered uri t.children)
        else allGathered uri t.children := by
  cases t
  rfl

theorem all_gathered (uri : String) (t : Tree) :
    (gathered uri t).children.all Markup.Tree.isInsignificant
      = t.children.all Markup.Tree.isInsignificant := by
  have each : (allGathered uri t.children).all Markup.Tree.isInsignificant
      = t.children.all Markup.Tree.isInsignificant := by
    rw [allGathered_eq_map, List.all_map]
    congr 1
    funext t
    exact isInsignificant_gathered uri t
  rw [children_gathered]
  split
  · rw [(gather_perm uri _).all_eq, each]
  · exact each

instance : TreeLikeness (Regrouped uri) where
  content {t t'} h := by
    rw [← content_gathered uri t, h, content_gathered]
  allInsignificant {t t'} h := by
    rw [← all_gathered uri t, h, all_gathered]

theorem macros_gathered (uri : String) (t : Tree) :
    (gathered uri t).children.filter (macroTree uri)
      = (t.children.filter (macroTree uri)).map (gathered uri) := by
  rw [children_gathered, ← filter_gathered]
  split
  · simp [gather, List.filter_append, List.filter_filter]
  · rfl

theorem others_gathered (uri : String) (t : Tree) :
    ((gathered uri t).children.filter fun u => !macroTree uri u)
      = (t.children.filter fun u => !macroTree uri u).map (gathered uri) := by
  rw [children_gathered, ← filter_others_gathered]
  split
  · simp [gather, List.filter_append, List.filter_filter]
  · rfl

theorem regrouped_of_map_eq
    (h : ts.map (gathered uri) = ts'.map (gathered uri)) :
    List.Forall₂ (Regrouped uri) ts ts' := by
  have hmap : List.Forall₂ (· = ·) (ts.map (gathered uri))
      (ts'.map (gathered uri)) := h ▸ List.forall₂_same.2 fun _ _ => rfl
  rw [List.forall₂_map_left_iff, List.forall₂_map_right_iff] at hmap
  exact hmap

theorem not_isLoose {n : Node} (h : Directed uri n) :
    isLoose uri n.tree = false := by
  obtain ⟨d, hd, hne⟩ := h
  have htree : Directive.ofNode? uri ⟨.given 0, n.tree, []⟩ = some d := hd
  unfold isLoose
  rw [htree, Option.all_some, beq_eq_false_iff_ne.2 hne, Bool.and_false]

theorem descends_regrouped (uri : String) :
    Descends uri (Transplanted (Regrouped uri)) where
  macros {n n'} h := by
    rw [macros_children, macros_children]
    refine Transplanted.below h.place (regrouped_of_map_eq ?_)
    rw [← macros_gathered, h.tree, macros_gathered]
  others {n n'} h := by
    rw [others_children, others_children]
    refine Transplanted.below h.place (regrouped_of_map_eq ?_)
    rw [← others_gathered, h.tree, others_gathered]
  wholly {n n'} h directed := by
    have directed' : Directed uri n' := by
      unfold Directed
      rwa [← Likeness.ofNode? h]
    have hchildren := congrArg Markup.Tree.children h.tree
    rw [children_gathered, children_gathered, not_isLoose directed,
      not_isLoose directed', allGathered_eq_map,
      allGathered_eq_map] at hchildren
    exact ⟨h, Transplanted.below h.place (regrouped_of_map_eq hchildren)⟩

/-- Trees may be replaced by such as are the same when macros are gathered. -/
def regrouped (uri : String) : Interchange :=
  .ofNodes (Transplanted (Regrouped uri)) fun _ => ⟨rfl, rfl⟩

theorem serves_regrouped (uri : String) (source : Loading.Source) :
    (regrouped uri).Serves uri source :=
  serves_ofNodes _ (descends_regrouped uri)

/-- A processor with another root, which its outermost scope is anchored in. -/
def Processor.withRoot (p : Processor) (root : Node) : Processor :=
  { p with root := root, scope := { p.scope with anchor := root } }

/-- Macros may be moved among the contents of literal elements anywhere in a
template, and in the template element itself: the same is written, and the run
goes well or stops for the same reason. -/
theorem moved_macros (p : Processor) {root : Node}
    (h : Transplanted (Regrouped p.options.uri) p.root root) :
    (∀ (σ : Type) (sink : Output.Sink σ) (start : σ),
      ((p.withRoot p.root).runInto sink start).Alike (regrouped p.options.uri)
        ((p.withRoot root).runInto sink start))
      ∧ ∀ room, ((p.withRoot p.root).render room).Alike
        (regrouped p.options.uri) ((p.withRoot root).render room) := by
  have same := p.scope.alike_same (E := regrouped p.options.uri) fun _ _ =>
    trivial
  have scope : (p.withRoot p.root).scope.Alike (regrouped p.options.uri)
      (p.withRoot root).scope :=
    ⟨h, rfl, same.macros, rfl, rfl, fun _ _ => trivial⟩
  have alike : (p.withRoot p.root).Alike (regrouped p.options.uri)
      (p.withRoot root) :=
    ⟨h, scope, rfl, rfl, rfl, serves_regrouped _ _⟩
  exact ⟨fun σ sink start => alike.runInto sink start,
    fun room => alike.render room⟩

end Stencil.Template
