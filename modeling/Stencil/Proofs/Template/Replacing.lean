/-
What a copy with intercepts sends.

A copy is laid out before it is made: the events of the source as it stands,
with a place left wherever an element is replaced (`plan`). With every place
filled by the element itself the plan is the source word for word; the places
are the outermost elements that an intercept is for, each with the first one
that is. To copy is to perform the plan from left to right
(`copyFrom_eq_plan`): to send the events, and to run what stands for each
element in a scope of its own.

The scopes that a copy opens around the contents of an element bind nothing
and are left as they were opened, so it makes no difference whether one of them
is kept for all the contents or opened for each part anew (`inScope_seq`).
-/
import Stencil.Proofs.Markup.Preorder
import Stencil.Proofs.Template.Balance
import Stencil.Proofs.Template.Frame

namespace Stencil.Template

open Markup (Element Node Origin Tree nodesOf nodesOfAll)
open Output (Balanced ElementName Event)

variable {σ : Type}

-- ================================================================ the plan

/-- An element of the source that is replaced: the nodes around it that the
copy has opened scopes at, nearest first, and the intercept for it. -/
structure Place (σ : Type) where
  source : Node
  levels : List Node
  intercept : Intercept σ

/-- Part of a copy. -/
inductive Portion (σ : Type) where
  | event (e : Event)
  | replaced (p : Place σ)

def Portion.place? : Portion σ → Option (Place σ)
  | .event _ => none
  | .replaced p => some p

mutual

/-- How a tree is copied in the scopes of some levels. -/
def planTree (uri : String) (is : List (Intercept σ)) (origin : Origin)
    (trail : List Tree) (levels : List Node) : Tree → List (Portion σ)
  | .node label ts =>
    let n : Node := ⟨origin, .node label ts, trail⟩
    match label.content with
    | .element e =>
      match is.find? fun i => i.tag == e.name.text with
      | some i => [.replaced ⟨n, levels, i⟩]
      | none =>
        .event (.start (.ofElement e) (copiedAttributes uri e))
          :: (planTrees uri is origin (.node label ts :: trail) (n :: levels) ts
            ++ [.event (.stop (.ofElement e))])
    | .cdata data => (cdata data).map .event
    | .text data => [.event (.characters data)]
    | _ => []

def planTrees (uri : String) (is : List (Intercept σ)) (origin : Origin)
    (trail : List Tree) (levels : List Node) : List Tree → List (Portion σ)
  | [] => []
  | t :: ts =>
    planTree uri is origin trail levels t
      ++ planTrees uri is origin trail levels ts

end

/-- How an element is copied, or its contents alone. -/
def plan (uri : String) (is : List (Intercept σ)) (whole : Bool)
    (source : Node) : List (Portion σ) :=
  if whole then planTree uri is source.origin source.trail [] source.tree
  else
    planTrees uri is source.origin (source.tree :: source.trail) [source]
      source.tree.children

-- ============================================================ word for word

mutual

/-- The events of a tree as it stands: its elements with all attributes that
are not reserved, and its character data; comments and instructions are
none. -/
def verbatimTree (uri : String) : Tree → List Event
  | .node label ts =>
    match label.content with
    | .element e =>
      .start (.ofElement e) (copiedAttributes uri e)
        :: (verbatimTrees uri ts ++ [.stop (.ofElement e)])
    | .cdata data => [.startCData, .characters data, .endCData]
    | .text data => [.characters data]
    | _ => []

def verbatimTrees (uri : String) : List Tree → List Event
  | [] => []
  | t :: ts => verbatimTree uri t ++ verbatimTrees uri ts

end

/-- The events of an element as it stands, or of its contents alone. -/
def verbatim (uri : String) (whole : Bool) (source : Node) : List Event :=
  if whole then verbatimTree uri source.tree
  else verbatimTrees uri source.tree.children

/-- What stands in the source where a part of the copy does. -/
def Portion.original (uri : String) : Portion σ → List Event
  | .event e => [e]
  | .replaced p => verbatimTree uri p.source.tree

theorem original_events (uri : String) (es : List Event) :
    (es.map (Portion.event (σ := σ))).flatMap (Portion.original uri) = es := by
  induction es with
  | nil => rfl
  | cons e es ih => exact congrArg (e :: ·) ih

mutual

/-- With every element for itself, the plan is the source as it stands. -/
theorem original_planTree (uri : String) (is : List (Intercept σ))
    (origin : Origin) (trail : List Tree) (levels : List Node) : ∀ t : Tree,
    (planTree uri is origin trail levels t).flatMap (Portion.original uri)
      = verbatimTree uri t
  | .node ⟨id, place, content⟩ ts => by
    cases content with
    | element e =>
      have hbelow := original_planTrees uri is origin
        (.node ⟨id, place, .element e⟩ ts :: trail)
        (⟨origin, .node ⟨id, place, .element e⟩ ts, trail⟩ :: levels) ts
      unfold planTree
      dsimp only
      cases is.find? fun i => i.tag == e.name.text with
      | some i => simp [Portion.original]
      | none => simp [Portion.original, verbatimTree, hbelow]
    | cdata data => exact original_events uri (cdata data)
    | text data => rfl
    | _ => rfl
termination_by structural t => t

theorem original_planTrees (uri : String) (is : List (Intercept σ))
    (origin : Origin) (trail : List Tree) (levels : List Node) :
    ∀ ts : List Tree,
    (planTrees uri is origin trail levels ts).flatMap (Portion.original uri)
      = verbatimTrees uri ts
  | [] => rfl
  | t :: ts => by
    rw [planTrees, List.flatMap_append,
      original_planTree uri is origin trail levels t,
      original_planTrees uri is origin trail levels ts, verbatimTrees]
termination_by structural ts => ts

end

theorem original_plan (uri : String) (is : List (Intercept σ)) (whole : Bool)
    (source : Node) :
    (plan uri is whole source).flatMap (Portion.original uri)
      = verbatim uri whole source := by
  unfold plan verbatim
  split
  · exact original_planTree ..
  · exact original_planTrees ..

-- ================================================================ the places

/-- The first intercept for the element of a tree. -/
def intercept? (is : List (Intercept σ)) (t : Tree) : Option (Intercept σ) :=
  match t.content with
  | .element e => is.find? fun i => i.tag == e.name.text
  | _ => none

/-- A tree whose contents are copied: an element that no intercept is for. -/
def passes (is : List (Intercept σ)) (t : Tree) : Bool :=
  t.isElement && (intercept? is t).isNone

/-- The nodes that are copied if nothing is replaced. -/
def copiedNodes (whole : Bool) (source : Node) : List Node :=
  if whole then source.nodes else source.children.flatMap Node.nodes

/-- The place of a node that is replaced: there is an intercept for it, and it
is outermost, which is to say that the nodes around it, those inside the first
`depth`, pass. The copy has opened a scope at each node around it, as far as
the source, whose depth is `base`. -/
def placeAt? (is : List (Intercept σ)) (base depth : Nat) (n : Node) :
    Option (Place σ) :=
  if (n.trail.take (n.trail.length - depth)).all (passes is) then
    (intercept? is n.tree).map fun i =>
      ⟨n, n.ancestors.take (n.trail.length - base), i⟩
  else none

/-- The place of a node of the source that is replaced. If the contents of the
source alone are copied, the source itself need not pass. -/
def place? (is : List (Intercept σ)) (whole : Bool) (source : Node) :
    Node → Option (Place σ) :=
  placeAt? is source.trail.length
    (if whole then source.trail.length else source.trail.length + 1)

mutual

/-- The nodes of a tree lie in the trees of its trail. -/
theorem trail_of_mem_nodesOf {origin : Origin} {n : Node} :
    ∀ (trail : List Tree) (t : Tree), n ∈ nodesOf origin trail t →
      ∃ inner, n.trail = inner ++ trail
  | trail, .node label ts, h => by
    rcases List.mem_cons.1 h with rfl | h
    · exact ⟨[], rfl⟩
    · obtain ⟨inner, hinner⟩ := trail_of_mem_nodesOfAll _ ts h
      exact ⟨inner ++ [.node label ts], by simp [hinner]⟩

theorem trail_of_mem_nodesOfAll {origin : Origin} {n : Node} :
    ∀ (trail : List Tree) (ts : List Tree), n ∈ nodesOfAll origin trail ts →
      ∃ inner, n.trail = inner ++ trail
  | _, [], h => absurd h List.not_mem_nil
  | trail, t :: ts, h => by
    rcases List.mem_append.1 h with h | h
    · exact trail_of_mem_nodesOf trail t h
    · exact trail_of_mem_nodesOfAll trail ts h

end

/-- In a tree that does not pass nothing is replaced. -/
theorem places_below {is : List (Intercept σ)} {base depth : Nat}
    {origin : Origin} {trail : List Tree} {t : Tree} (ts : List Tree)
    (hdepth : depth ≤ trail.length) (ht : passes is t = false) :
    (nodesOfAll origin (t :: trail) ts).filterMap (placeAt? is base depth)
      = [] := by
  refine List.filterMap_eq_nil_iff.2 fun n hn => ?_
  obtain ⟨inner, hinner⟩ := trail_of_mem_nodesOfAll (t :: trail) ts hn
  have hmem : t ∈ n.trail.take (n.trail.length - depth) := by
    have hlength : n.trail.length - depth
        = inner.length + (trail.length - depth + 1) := by
      simp only [hinner, List.length_append, List.length_cons]
      omega
    rw [hlength, hinner, List.take_length_add_append]
    simp
  refine if_neg fun hall => ?_
  rw [List.all_eq_true.1 hall t hmem] at ht
  cases ht

/-- A node whose surroundings pass is replaced if there is an intercept. -/
theorem placeAt?_of_passes {is : List (Intercept σ)} {base depth : Nat}
    {n : Node} (h : (n.trail.take (n.trail.length - depth)).all (passes is)) :
    placeAt? is base depth n = (intercept? is n.tree).map fun i =>
      ⟨n, n.ancestors.take (n.trail.length - base), i⟩ :=
  if_pos h

mutual

/-- The places in the plan of a tree, if all around the tree passes. -/
theorem places_planTree (uri : String) (is : List (Intercept σ))
    (origin : Origin) (base depth : Nat) (hbase : base ≤ depth) :
    ∀ (trail : List Tree) (t : Tree), depth ≤ trail.length →
    (trail.take (trail.length - depth)).all (passes is) →
    (planTree uri is origin trail
        ((Node.onTrail origin trail).take (trail.length - base)) t).filterMap
          Portion.place?
      = (nodesOf origin trail t).filterMap (placeAt? is base depth)
  | trail, .node ⟨id, place, content⟩ ts, hdepth, hall => by
    rw [nodesOf, List.filterMap_cons, placeAt?_of_passes hall]
    cases content with
    | element e =>
      unfold planTree
      dsimp only
      cases hfind : is.find? fun i => i.tag == e.name.text with
      | some i =>
        have hmatched : intercept? is (.node ⟨id, place, .element e⟩ ts)
            = some i := hfind
        -- a replaced element hides what is below it
        have hstays : passes is (.node ⟨id, place, .element e⟩ ts) = false := by
          rw [passes, hmatched]
          rfl
        rw [places_below ts hdepth hstays, hmatched]
        rfl
      | none =>
        have hmatched : intercept? is (.node ⟨id, place, .element e⟩ ts)
            = none := hfind
        have hpasses : passes is (.node ⟨id, place, .element e⟩ ts) = true := by
          rw [passes, hmatched]
          rfl
        have hbelow := places_planTrees uri is origin base depth hbase
          (.node ⟨id, place, .element e⟩ ts :: trail) ts
          (Nat.le_succ_of_le hdepth) (by
            rw [List.length_cons, Nat.succ_sub hdepth, List.take_succ_cons,
              List.all_cons, hpasses, hall]
            rfl)
        rw [Node.onTrail, List.length_cons,
          Nat.succ_sub (Nat.le_trans hbase hdepth), List.take_succ_cons]
          at hbelow
        rw [hmatched, ← hbelow, List.filterMap_cons_none rfl,
          List.filterMap_append, List.filterMap_cons_none rfl]
        exact List.append_nil _
    | _ =>
      rw [places_below ts hdepth rfl]
      rfl
termination_by structural _ t => t

theorem places_planTrees (uri : String) (is : List (Intercept σ))
    (origin : Origin) (base depth : Nat) (hbase : base ≤ depth) :
    ∀ (trail : List Tree) (ts : List Tree), depth ≤ trail.length →
    (trail.take (trail.length - depth)).all (passes is) →
    (planTrees uri is origin trail
        ((Node.onTrail origin trail).take (trail.length - base)) ts).filterMap
          Portion.place?
      = (nodesOfAll origin trail ts).filterMap (placeAt? is base depth)
  | _, [], _, _ => rfl
  | trail, t :: ts, hdepth, hall => by
    rw [planTrees, nodesOfAll, List.filterMap_append, List.filterMap_append,
      places_planTree uri is origin base depth hbase trail t hdepth hall,
      places_planTrees uri is origin base depth hbase trail ts hdepth hall]
termination_by structural _ ts => ts

end

theorem places_plan (uri : String) (is : List (Intercept σ)) (whole : Bool)
    (source : Node) :
    (plan uri is whole source).filterMap Portion.place?
      = (copiedNodes whole source).filterMap (place? is whole source) := by
  cases whole with
  | true =>
    have h := places_planTree uri is source.origin source.trail.length
      source.trail.length (Nat.le_refl _) source.trail source.tree
      (Nat.le_refl _) (by simp)
    rw [Nat.sub_self, List.take_zero] at h
    exact h
  | false =>
    have h := places_planTrees uri is source.origin source.trail.length
      (source.trail.length + 1) (Nat.le_succ _) (source.tree :: source.trail)
      source.tree.children (Nat.le_refl _) (by simp)
    rw [Markup.nodesOfAll_eq] at h
    simp only [List.length_cons, Nat.add_sub_cancel_left, Node.onTrail,
      List.take_succ_cons, List.take_zero] at h
    show _ = (source.children.flatMap Node.nodes).filterMap _
    rw [Node.children, List.flatMap_map]
    exact h

-- ================================================================== scopes

section

variable {s : Settings σ} {x y : Run σ Unit}

/-- Acts in a scope of its own at each of some levels, the first innermost. -/
def inScopes : List Node → Run σ Unit → Run σ Unit
  | [], x => x
  | n :: ns, x => inScopes ns (inScope n x)

theorem inScope_ok {n : Node} {m m' : Machine σ}
    (h : x { m with scopes := m.scopes.push n } = .ok () m') :
    inScope n x m = .ok () { m' with scopes := m'.scopes.pop } := by
  unfold inScope between
  rw [h]

theorem inScope_error {n : Node} {e : Stop} {m m' : Machine σ}
    (h : x { m with scopes := m.scopes.push n } = .error e m') :
    inScope n x m = .error e { m' with scopes := m'.scopes.pop } := by
  unfold inScope between
  rw [h]

/-- A scope that is left as it was opened may as well be opened again. -/
theorem inScope_seq (n : Node) (hx : Within Untouched x) :
    inScope n (x >>= fun _ => y)
      = (inScope n x >>= fun _ => inScope n y) := by
  funext m
  have huntouched := hx { m with scopes := m.scopes.push n }
  cases h : x { m with scopes := m.scopes.push n } with
  | ok _ m' =>
    rw [after_ok h] at huntouched
    have hscopes : m'.scopes = m.scopes.push n := huntouched.scopes
    have hagain : { m' with scopes := m'.scopes.pop.push n } = m' := by
      rw [hscopes, Scopes.pop_push, ← hscopes]
    rw [bind_ok (inScope_ok h)]
    unfold inScope between
    dsimp only
    rw [bind_ok h, hagain]
  | error e m' =>
    rw [bind_error (inScope_error h), inScope_error (bind_error h)]

theorem untouched_inScopes (levels : List Node) (hx : Within Untouched x) :
    Within Untouched (inScopes levels x) := by
  induction levels generalizing x with
  | nil => exact hx
  | cons n ns ih => exact ih (untouched_inScope n hx.framed)

theorem inScopes_seq (levels : List Node) (hx : Within Untouched x) :
    inScopes levels (x >>= fun _ => y)
      = (inScopes levels x >>= fun _ => inScopes levels y) := by
  induction levels generalizing x y with
  | nil => rfl
  | cons n ns ih =>
    rw [inScopes, inScope_seq n hx, ih (untouched_inScope n hx.framed)]
    rfl

/-- Sending takes no notice of scopes. -/
theorem inScopes_send (levels : List Node) (e : Event) :
    inScopes levels (send s e) = send s e := by
  have hone (n : Node) : inScope n (send s e) = send s e := by
    funext m
    unfold inScope between send
    dsimp only
    cases s.sink.send m.output e with
    | mk o refusal => cases refusal <;> simp only [Scopes.pop_push]
  induction levels with
  | nil => rfl
  | cons n ns ih => rw [inScopes, hone, ih]

theorem inScopes_skip (levels : List Node) :
    inScopes levels (pure () : Run σ Unit) = pure () := by
  have hone (n : Node) : inScope n (pure () : Run σ Unit) = pure () := by
    funext m
    show EStateM.Result.ok () { m with scopes := (m.scopes.push n).pop } = _
    rw [Scopes.pop_push]
    rfl
  induction levels with
  | nil => rfl
  | cons n ns ih => rw [inScopes, hone, ih]

end

-- ============================================================== performance

/-- What stands for a replaced element: in a scope of its own at the
intercept, where the captured name is bound to the element, the contents of
the intercept, trimmed. -/
def Place.run (s : Settings σ) (inner : Option (Inner σ)) (p : Place σ) :
    Run σ Unit :=
  inScopes p.levels do
    inScope p.intercept.node do
      bindOptional p.intercept.node p.intercept.capture (.element p.source)
      contents s inner true p.intercept.node

def Portion.run (s : Settings σ) (inner : Option (Inner σ)) :
    Portion σ → Run σ Unit
  | .event e => send s e
  | .replaced p => p.run s inner

/-- The parts of a copy, one after the other. -/
def runAll (s : Settings σ) (inner : Option (Inner σ)) :
    List (Portion σ) → Run σ Unit
  | [] => pure ()
  | p :: ps => do
    p.run s inner
    runAll s inner ps

/-- The replacement of each intercept is what its contents are. -/
def Collected (s : Settings σ) (inner : Option (Inner σ))
    (is : List (Intercept σ)) : Prop :=
  ∀ i ∈ is, i.replacement = contents s inner true i.node

section

variable {s : Settings σ} {inner : Option (Inner σ)} {is : List (Intercept σ)}

theorem runAll_append (ps qs : List (Portion σ)) :
    runAll s inner (ps ++ qs)
      = (runAll s inner ps >>= fun _ => runAll s inner qs) := by
  induction ps with
  | nil => exact (pure_bind _ _).symm
  | cons p ps ih =>
    rw [List.cons_append, runAll, runAll, ih, bind_assoc]

theorem runAll_single (p : Portion σ) : runAll s inner [p] = p.run s inner :=
  bind_pure_unit

theorem runAll_events (es : List Event) :
    runAll s inner (es.map .event) = sendAll s es := by
  induction es with
  | nil => rfl
  | cons e es ih =>
    rw [List.map_cons, runAll, ih]
    rfl

theorem inScopes_sendAll (levels : List Node) (es : List Event) :
    inScopes levels (sendAll s es) = sendAll s es := by
  induction es with
  | nil => exact inScopes_skip levels
  | cons e es ih =>
    have hcons : sendAll s (e :: es) = (send s e >>= fun _ => sendAll s es) :=
      rfl
    rw [hcons, inScopes_seq levels (untouched_send s e), ih, inScopes_send]

theorem untouched_place (hi : InnerFramed inner) (p : Place σ) :
    Within Untouched (p.run s inner) := by
  have c := framed_congruence s
  refine untouched_inScopes p.levels (untouched_inScope _ ?_)
  exact framed_bind (c.optional _ _ _) fun _ => c.contents hi true _

theorem untouched_runAll (hi : InnerFramed inner) (ps : List (Portion σ)) :
    Within Untouched (runAll s inner ps) := by
  induction ps with
  | nil => exact untouched_skip
  | cons p ps ih =>
    refine untouched_bind ?_ fun _ => ih
    cases p with
    | event e => exact untouched_send s e
    | replaced p => exact untouched_place hi p

mutual

/-- To copy a tree in the scopes of some levels is to perform its plan. -/
theorem inScopes_copyTree (hi : InnerFramed inner)
    (his : Collected s inner is) (origin : Origin) :
    ∀ (trail : List Tree) (levels : List Node) (t : Tree),
    inScopes levels (copyTree s is origin trail t)
      = runAll s inner (planTree s.uri is origin trail levels t)
  | trail, levels, .node ⟨id, place, content⟩ ts => by
    cases content with
    | element e =>
      unfold copyTree planTree
      dsimp only
      cases hfind : is.find? fun i => i.tag == e.name.text with
      | some i =>
        have hcollected := his i (List.mem_of_find?_eq_some hfind)
        dsimp only
        rw [runAll_single, Portion.run, Place.run, Intercept.run, hcollected]
      | none =>
        -- at no levels the contents are a plan too, so they keep the scopes
        have huntouched : Within Untouched (copyTrees s is origin
            (.node ⟨id, place, .element e⟩ ts :: trail) ts) := by
          have hkept := inScopes_copyTrees hi his origin
            (.node ⟨id, place, .element e⟩ ts :: trail) [] ts
          rw [inScopes] at hkept
          rw [hkept]
          exact untouched_runAll hi _
        have hbelow := inScopes_copyTrees hi his origin
          (.node ⟨id, place, .element e⟩ ts :: trail)
          (⟨origin, .node ⟨id, place, .element e⟩ ts, trail⟩ :: levels) ts
        rw [inScopes] at hbelow
        dsimp only
        rw [inScopes_seq levels (untouched_send s _),
          inScopes_seq levels (untouched_inScope _ huntouched.framed),
          hbelow, inScopes_send, inScopes_send, runAll, runAll_append,
          runAll_single]
        rfl
    | cdata data =>
      exact (inScopes_sendAll levels _).trans (runAll_events (cdata data)).symm
    | text data =>
      exact (inScopes_send levels _).trans
        (runAll_single (.event (.characters data))).symm
    | _ => exact inScopes_skip levels

theorem inScopes_copyTrees (hi : InnerFramed inner)
    (his : Collected s inner is) (origin : Origin) :
    ∀ (trail : List Tree) (levels : List Node) (ts : List Tree),
    inScopes levels (copyTrees s is origin trail ts)
      = runAll s inner (planTrees s.uri is origin trail levels ts)
  | _, levels, [] => inScopes_skip levels
  | trail, levels, t :: ts => by
    have hkept := inScopes_copyTree hi his origin trail [] t
    rw [inScopes] at hkept
    have huntouched : Within Untouched (copyTree s is origin trail t) := by
      rw [hkept]
      exact untouched_runAll hi _
    rw [copyTrees, inScopes_seq levels huntouched,
      inScopes_copyTree hi his origin trail levels t,
      inScopes_copyTrees hi his origin trail levels ts, planTrees,
      runAll_append]

end

/-- To copy is to perform the plan, to whatever output and however it ends. -/
theorem copyFrom_eq_plan (hi : InnerFramed inner) (his : Collected s inner is)
    (whole : Bool) (source : Node) :
    copyFrom s is whole source
      = runAll s inner (plan s.uri is whole source) := by
  cases whole with
  | true => exact inScopes_copyTree hi his source.origin source.trail [] _
  | false =>
    exact inScopes_copyTrees hi his source.origin (source.tree :: source.trail)
      [source] _

/-- The intercepts that a copy element holds have the contents of their
elements for replacements. -/
theorem collected_of_intercepts {uri : String} {n : Node} {origin : Origin}
    {trail ts : List Tree} {env : Expr.Environment}
    (h : intercepts uri n (replacements s inner origin trail ts) env = .ok is) :
    Collected s inner is := by
  have hchildren : List.Forall₂
      (PairAlike fun child x (_ : Run σ Unit) =>
        x = contents s inner true child)
      (replacements s inner origin trail ts)
      (replacements s inner origin trail ts) := by
    clear h
    induction ts with
    | nil => exact .nil
    | cons t ts ih => exact .cons ⟨rfl, body_eq_contents s inner origin trail t⟩ ih
  obtain ⟨is', his⟩ := (alike_intercepts uri n hchildren env).exists_of_ok h
  have hboth := his.imp fun i i' hi => And.intro hi.replacement hi.node
  exact ((List.forall₂_and_left is is').1 hboth).1

-- ================================================================= the events

/-- Parts of a copy are performed one after the other, and each sends a block
of events. An event is a block by itself; what stands for a replaced element
runs in the scopes that the copy began in, with those of its levels and its own
on top, and sends what is balanced. -/
inductive Performs (s : Settings (List Event × σ))
    (inner : Option (Inner (List Event × σ))) (scopes : Scopes) :
    List (Portion (List Event × σ)) → List (List Event) →
      Machine (List Event × σ) → Machine (List Event × σ) → Prop
  | done (m : Machine (List Event × σ)) : Performs s inner scopes [] [] m m
  | event {e : Event} {ps : List (Portion (List Event × σ))}
      {blocks : List (List Event)} {m m₁ m' : Machine (List Event × σ)}
      (sent : send s e m = .ok () m₁)
      (rest : Performs s inner scopes ps blocks m₁ m') :
      Performs s inner scopes (.event e :: ps) ([e] :: blocks) m m'
  | replaced {p : Place (List Event × σ)}
      {ps : List (Portion (List Event × σ))} {es : List Event}
      {blocks : List (List Event)} {m m₁ m' : Machine (List Event × σ)}
      (begins : m.scopes = scopes) (ran : p.run s inner m = .ok () m₁)
      (added : m₁.output.1 = m.output.1 ++ es) (balanced : Balanced es)
      (rest : Performs s inner scopes ps blocks m₁ m') :
      Performs s inner scopes (.replaced p :: ps) (es :: blocks) m m'

end

section

variable {s : Settings σ} {inner : Option (Inner (List Event × σ))}

theorem emits_inScopes {x : Run (List Event × σ) Unit} (levels : List Node)
    (hx : Emits Prod.fst x) : Emits Prod.fst (inScopes levels x) := by
  induction levels generalizing x with
  | nil => exact hx
  | cons n ns ih => exact ih (emits_between (fun _ => rfl) (fun _ => rfl) hx)

/-- What stands for a replaced element sends something balanced. -/
theorem emits_place
    (hi : Option.Rel (InnerAlike (Alone (Emits Prod.fst))) inner inner)
    (p : Place (List Event × σ)) : Emits Prod.fst (p.run s.watched inner) := by
  have shows : Shows Prod.fst s.watched.sink := fun _ _ => rfl
  have c := emits_congruence (s := s.watched) shows
  refine emits_inScopes p.levels
    (emits_between (fun _ => rfl) (fun _ => rfl) ?_)
  exact emits_seq (c.optional _ _ _) (c.contents hi true _)

/-- A plan that is performed to the end performs its parts, and sends their
blocks. -/
theorem performs_of_runAll (hf : InnerFramed inner)
    (he : Option.Rel (InnerAlike (Alone (Emits Prod.fst))) inner inner)
    {ps : List (Portion (List Event × σ))}
    {m m' : Machine (List Event × σ)}
    (h : runAll s.watched inner ps m = .ok () m') :
    ∃ blocks, Performs s.watched inner m.scopes ps blocks m m'
      ∧ m'.output.1 = m.output.1 ++ blocks.flatten := by
  induction ps generalizing m with
  | nil =>
    cases h
    exact ⟨[], .done m', (List.append_nil _).symm⟩
  | cons p ps ih =>
    obtain ⟨_, m₁, hfirst, hrest⟩ := exists_of_bind_ok h
    have huntouched := untouched_runAll (s := s.watched) hf [p] m
    rw [runAll_single, after_ok hfirst] at huntouched
    obtain ⟨blocks, hperforms, hblocks⟩ := ih hrest
    -- a portion leaves the scopes as they were, so the rest begins in the same
    rw [huntouched.scopes] at hperforms
    cases p with
    | event e =>
      have shows : Shows Prod.fst s.watched.sink := fun _ _ => rfl
      have hsent : m₁.output.1 = m.output.1 ++ [e] := sent_ok shows hfirst
      refine ⟨[e] :: blocks, .event hfirst hperforms, ?_⟩
      rw [hblocks, hsent, List.append_assoc, List.flatten_cons]
    | replaced p =>
      obtain ⟨es, hadds⟩ := emits_place (s := s) he p m
      have hfirst : p.run s.watched inner m = .ok () m₁ := hfirst
      rw [hfirst] at hadds
      obtain ⟨hadded, hbalanced⟩ := hadds
      refine ⟨es :: blocks, .replaced rfl hfirst hadded hbalanced hperforms, ?_⟩
      rw [hblocks, hadded, List.append_assoc, List.flatten_cons]

end

/-- A copy with intercepts replaces elements where they stand. The source as it
stands, with a place for each outermost element that an intercept is for, makes
the plan; and what a successful copy sends is the plan with each place filled
by what the contents of the first such intercept send, trimmed, in a scope of
their own with the captured name bound to the element. Nothing else is sent,
and the scopes are then as they were before. -/
theorem copied_with_replacements (s : Settings σ) (room : Nat)
    (is : List (Intercept (List Event × σ))) (whole : Bool) (source : Node)
    (m m' : Machine (List Event × σ))
    (his : Collected s.watched (inner? s.watched room) is)
    (h : copyFrom s.watched is whole source m = .ok () m') :
    (∃ blocks, Performs s.watched (inner? s.watched room) m.scopes
          (plan s.uri is whole source) blocks m m'
        ∧ m'.output.1 = m.output.1 ++ blocks.flatten)
      ∧ (plan s.uri is whole source).flatMap (Portion.original s.uri)
        = verbatim s.uri whole source
      ∧ (plan s.uri is whole source).filterMap Portion.place?
        = (copiedNodes whole source).filterMap (place? is whole source)
      ∧ m'.scopes = m.scopes ∧ m'.nesting = m.nesting := by
  have shows : Shows Prod.fst s.watched.sink := fun _ _ => rfl
  have hframed := (framed_congruence s.watched).inner room
  have hemits := (emits_congruence (s := s.watched) shows).inner room
  rw [copyFrom_eq_plan hframed his] at h
  have huntouched := untouched_runAll (s := s.watched) hframed
    (plan s.watched.uri is whole source) m
  rw [after_ok h] at huntouched
  exact ⟨performs_of_runAll hframed hemits h, original_plan .., places_plan ..,
    huntouched.scopes, huntouched.nesting⟩

/-- An element that is to be copied, with an attribute of the namespace `x`, an
expression that is taken as it is, and an element inside one of its own
tag. -/
def quilt : Node :=
  let leaf (id : Nat) (name : String) (ts : List Tree) : Tree :=
    .node ⟨id, ⟨1, id⟩, .element ⟨.ofText name, none, [], []⟩⟩ ts
  let attributes := [⟨.ofText "k", none, "$\x7b1\x7d"⟩,
    ⟨.ofText "x:if", some "x", "true"⟩]
  ⟨.given 0,
    .node ⟨1, ⟨1, 1⟩, .element ⟨.ofText "r", none, attributes, []⟩⟩
      [.node ⟨2, ⟨1, 2⟩, .text "t"⟩ [], leaf 3 "b" [leaf 4 "b" []],
        .node ⟨5, ⟨1, 5⟩, .comment "c"⟩ [], leaf 6 "c" [leaf 7 "b" []]], []⟩

/-- An intercept for elements of the tag `b`, an element in white space. -/
def patch : Tree :=
  directive 2 "intercept"
    [⟨.ofText "element", none, "b"⟩, ⟨.ofText "name", none, "e"⟩]
    [.node ⟨3, ⟨3, 1⟩, .text " "⟩ [],
      .node ⟨4, ⟨4, 1⟩, .element ⟨.ofText "w", none, [], []⟩⟩ [],
      .node ⟨5, ⟨5, 1⟩, .text " "⟩ []]

/-- A copy element with that intercept. -/
def patching : Node :=
  ⟨.given 1, directive 1 "copy" [⟨.ofText "element", none, "r"⟩] [patch], []⟩

/-- What is collected from the copy element. -/
def patches (s : Settings σ) (inner : Option (Inner σ)) : List (Intercept σ) :=
  [⟨"b", patching.below patch, some "e",
    contents s inner true (patching.below patch)⟩]

/-- What the copy sends. -/
def patched : List Event :=
  let named (name : String) : ElementName := ⟨none, name, name⟩
  [.start (named "r") [("k", "$\x7b1\x7d")], .characters "t",
    .start (named "w") [], .stop (named "w"), .start (named "c") [],
    .start (named "w") [], .stop (named "w"), .stop (named "c"),
    .stop (named "r")]

/-- The outer of the two that lie in each other is replaced, and the one
further on; the element itself, its text and the element around stay. -/
theorem quilt_copied :
    let s : Settings Unit := ⟨"x", ⟨fun _ _ => ((), none)⟩, .memory [], 0⟩
    let inner := inner? s.watched 0
    let is := patches s.watched inner
    let m : Machine (List Event × Unit) :=
      ⟨.single (.fresh patching none), 0, .empty, ([], ())⟩
    intercepts s.uri patching (replacements s.watched inner patching.origin
        [patching.tree] [patch]) m.scopes.environment = .ok is
    ∧ Collected s.watched inner is
    ∧ ∃ m' blocks, copyFrom s.watched is true quilt m = .ok () m'
      ∧ Performs s.watched inner m.scopes (plan s.uri is true quilt) blocks m m'
      ∧ blocks.flatten = patched := by
  intro s inner is m
  have hread : intercepts s.uri patching (replacements s.watched inner
        patching.origin [patching.tree] [patch]) m.scopes.environment
      = .ok is := by
    with_unfolding_all rfl
  have hcollected := collected_of_intercepts hread
  have hsent : (match copyFrom s.watched is true quilt m with
      | .ok _ m' => some m'.output.1
      | .error _ _ => none) = some patched := by
    decide +kernel
  cases hcopy : copyFrom s.watched is true quilt m with
  | error e m' =>
    rw [hcopy] at hsent
    cases hsent
  | ok _ m' =>
    rw [hcopy] at hsent
    obtain ⟨⟨blocks, hperforms, houtput⟩, -⟩ := copied_with_replacements s 0 is
      true quilt m m' hcollected hcopy
    refine ⟨hread, hcollected, m', blocks, rfl, hperforms, ?_⟩
    exact houtput.symm.trans (Option.some.inj hsent)

end Stencil.Template
