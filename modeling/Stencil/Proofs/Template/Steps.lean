/-
Processing in single steps.

What is still to be done is a list of tasks. A step takes the first task off,
does what can be done of it at once, and puts in its place what lies in it. A
scope that was opened is left by a task further down, and so is an inclusion
or a call; a fault takes off all tasks, but what they leave is left.

Steps look at the machine alone: whether there is room for another inclusion
or call is a matter of how many the machine has counted, and a floating loop
makes as many passes as it takes.
-/
import Mathlib.Logic.Function.Iterate
import Stencil.Proofs.Template.Passes
import Stencil.Template.Interpreter

namespace Stencil.Template

open Stencil.Expr (Value)
open Markup (Node Tree)
open Output (Event)

variable {σ : Type}

-- =================================================================== tasks

/-- What is to be done. Of an intercept only the node is made use of: its
contents are the replacement. -/
inductive Task where
  | execute (n : Node)
  | element (n : Node)
  | contents (trim : Bool) (n : Node)
  | items (trim front : Bool) (parent : Node) (ts : List Tree)
  | cases (n : Node) (ts : List Tree)
  | each (n : Node) (spec : LoopSpec) (i : Nat) (vs : List Value)
  | whole (n : Node) (name : Option String) (step : Int) (k : Nat) (i : Int)
  | floating (n : Node) (name : Option String) (r : Range Float) (up : Bool)
      (x : Float)
  | fetch (n : Node) (href : String)
  | invoke (n body : Node)
  | copyTree (is : List (Intercept Unit)) (source : Node)
  | copyTrees (is : List (Intercept Unit)) (parent : Node) (ts : List Tree)
  | send (e : Event)
  | leave
  | close (n : Node)

/-- Tasks in a scope of their own, which is left behind them. -/
def tasksInScope (anchor : Node) (tasks : Run σ (List Task)) :
    Run σ (List Task) := fun m =>
  match tasks { m with scopes := m.scopes.push anchor } with
  | .ok ts m => .ok (ts ++ [.leave]) m
  | .error e m => .error e { m with scopes := m.scopes.pop }

/-- A task inside an inclusion or a call, which is closed behind it. -/
def entered (n : Node) (t : Task) : Run σ (List Task) := do
  modify fun m => { m with nesting := m.nesting + 1 }
  pure [t, .close n]

-- ============================================================== directives

namespace Task

def inclusion (n : Node) : Run σ (List Task) := do
  match ← read (substituted n "href") with
  | none => fail (.on n "href" .hrefMissing)
  | some href =>
    if (← get).nesting < nestingLimit then pure [.fetch n href]
    else fail (.on n "href" (.inclusionsTooDeep href))

def included (s : Settings σ) (n : Node) (href : String) :
    Run σ (List Task) := do
  match Loading.resolveHref (← get).scopes.base href with
  | .error e => fail (.on n "href" (.hrefInvalid href e))
  | .ok url =>
    match ← load s url with
    | .error e => fail (.on n "href" (.loading e))
    | .ok document =>
      match document.rootElement? with
      | none => fail (.about n .noRoot)
      | some root =>
        tasksInScope root do
          setBase (some url)
          entered n (.execute root)

def call (n : Node) : Run σ (List Task) := do
  let name := (← read (substituted n "name")).getD ""
  let m ← get
  match m.scopes.defined? name with
  | none => fail (.on n "name" (.unknownMacro name))
  | some body =>
    if m.nesting < nestingLimit then tasksInScope n (pure [.invoke n body])
    else fail (.on n "name" (.callsTooDeep name))

def condition (n : Node) : Run σ (List Task) := do
  match ← read (substituted n "test") with
  | none => fail (.on n "test" .testMissing)
  | some test =>
    if ← read (truth n test) then tasksInScope n (pure [.contents true n])
    else pure []

def loop (n : Node) : Run σ (List Task) := do
  let spec ← read (loopSpec n)
  match ← read (loopKind n spec) with
  | .items values => tasksInScope n (pure [.each n spec 0 values])
  | .range b =>
    if b.isFloating then
      let r ← read (floatRange n b)
      let up := Number.compareFloats r.first r.last == some .lt
      if r.first == r.last then pure []
      else tasksInScope n (pure [.floating n spec.name r up r.first])
    else
      let r ← read (wholeRange n b)
      let up := r.first.toInt < r.last.toInt
      let step := if up then r.step.toInt else -r.step.toInt
      if r.first = r.last then pure []
      else
        tasksInScope n
          (pure [.whole n spec.name step r.passes r.first.toInt])

def copy (s : Settings σ) (n : Node) : Run σ (List Task) := do
  match ← read (substituted n "element") with
  | none => fail (.on n "element" .copySourceMissing)
  | some text =>
    tasksInScope n do
      let source ← read (copySource n text)
      let whole ← read (copiesWhole n)
      let children := n.children.map fun child => (child, pure ())
      let is ← read (intercepts s.uri n children)
      if whole then pure [.copyTree is source]
      else
        tasksInScope source
          (pure [.copyTrees is source source.tree.children])

def directive (s : Settings σ) (n : Node) : Directive → Run σ (List Task)
  | .failure => do
    explicitFailure n
    pure []
  | .doctype => do
    doctype s n
    pure []
  | .inclusion => inclusion n
  | .assignment => do
    assignment n
    pure []
  | .condition => condition n
  | .switch => pure [.cases n n.tree.children]
  | .loop => loop n
  | .call => call n
  | .comment => pure []
  | .copy => copy s n
  | .definition => pure []
  | d => fail (.about n (.misplaced d))

def literal (s : Settings σ) (n : Node) : Run σ (List Task) :=
  match n.element? with
  | none => pure []
  | some e => do
    let attributes ← read (literalAttributes s.uri n e.attributes)
    Template.send s (.start (.ofElement e) attributes)
    pure [.contents false n, .send (.stop (.ofElement e))]

-- =============================================================== expansion

/-- A root: the contents of a template element, or any other element. -/
def root (s : Settings σ) (n : Node) : Run σ (List Task) :=
  if Directive.ofNode? s.uri n = some .template then
    pure [.contents false n]
  else pure [.element n]

/-- One of the contents, with what is to be done behind it. -/
def item (s : Settings σ) (n : Node) (front back : Bool) (rest : Task) :
    Run σ (List Task) :=
  match n.content with
  | .element _ =>
    if Directive.ofNode? s.uri n = some .definition then pure [rest]
    else pure [.element n, rest]
  | _ => do
    Template.item s n front back (pure ())
    pure [rest]

/-- The contents from `t` on. -/
def nextItem (s : Settings σ) (trim front : Bool) (parent : Node) (t : Tree)
    (ts : List Tree) : Run σ (List Task) :=
  let ends := trim && ts.all Tree.isInsignificant
  if front && t.isInsignificant then pure [.items trim true parent ts]
  else if ends && t.isInsignificant then pure []
  else item s (parent.below t) front ends (.items trim false parent ts)

/-- A node of the source of a copy. -/
def copied (s : Settings σ) (is : List (Intercept Unit)) (source : Node) :
    Run σ (List Task) :=
  match source.content with
  | .element e =>
    match is.find? fun i => i.tag == e.name.text with
    | some i =>
      tasksInScope i.node do
        bindOptional i.node i.capture (.element source)
        pure [.contents true i.node]
    | none => do
      Template.send s (.start (.ofElement e) (copiedAttributes s.uri e))
      let ts ←
        tasksInScope source (pure [.copyTrees is source source.tree.children])
      pure (ts ++ [.send (.stop (.ofElement e))])
  | .cdata data => do
    sendAll s (cdata data)
    pure []
  | .text data => do
    Template.send s (.characters data)
    pure []
  | _ => pure []

/-- Does what can be done of a task at once, and gives what is left of it. -/
def expand (s : Settings σ) : Task → Run σ (List Task)
  | .execute n => root s n
  | .element n => do
    if ← read (Template.included s.uri n) then
      match Directive.ofNode? s.uri n with
      | some d => directive s n d
      | none => literal s n
    else pure []
  | .contents trim n => do
    defineAll s n.children
    pure [.items trim trim n n.tree.children]
  | .items _ _ _ [] => pure []
  | .items trim front parent (t :: ts) => nextItem s trim front parent t ts
  | .cases _ [] => pure []
  | .cases n (t :: ts) => do
    if ← read (caseApplies s n (n.below t)) then
      tasksInScope (n.below t) (pure [.contents true (n.below t)])
    else pure [.cases n ts]
  | .each _ _ _ [] => pure []
  | .each n spec i (v :: vs) => do
    bindOptional n spec.name v
    bindOptional n spec.index (.int (Int64.ofNat i))
    pure [.contents true n, .each n spec (i + 1) vs]
  | .whole _ _ _ 0 _ => pure []
  | .whole n name step (k + 1) i => do
    bindOptional n name (.int (Int64.ofInt i))
    pure [.contents true n, .whole n name step k (i + step)]
  | .floating n name r up x => do
    bindOptional n name (.float x)
    let next := r.next up x
    if r.isInside up next then
      pure [.contents true n, .floating n name r up next]
    else pure [.contents true n]
  | .fetch n href => included s n href
  | .invoke n body => do
    bindParams s n n.children
    entered n (.contents true body)
  | .copyTree is source => copied s is source
  | .copyTrees _ _ [] => pure []
  | .copyTrees is parent (t :: ts) =>
    pure [.copyTree is (parent.below t), .copyTrees is parent ts]
  | .send e => do
    Template.send s e
    pure []
  | .leave => do
    modify fun m => { m with scopes := m.scopes.pop }
    pure []
  | .close _ => do
    modify fun m => { m with nesting := m.nesting - 1 }
    pure []

/-- What is left also when the task is not come to. -/
def undo : Task → Machine σ → Machine σ
  | .leave, m => { m with scopes := m.scopes.pop }
  | .close _, m => { m with nesting := m.nesting - 1 }
  | _, m => m

/-- The inclusion or call that a task closes. -/
def closed? : Task → Option Node
  | .close n => some n
  | _ => none

end Task

-- =================================================================== steps

/-- What is still to be done, on which machine, and why it is not done if it
is not. -/
structure Progress (σ : Type) where
  work : List Task
  stop : Option Stop
  machine : Machine σ

namespace Progress

/-- Nothing is done yet of a root. -/
def beginning (n : Node) (m : Machine σ) : Progress σ :=
  ⟨[.execute n], none, m⟩

/-- The inclusions and calls that are open, innermost first. -/
def opened (c : Progress σ) : List Node := c.work.filterMap Task.closed?

/-- How processing ended, when nothing is left to do. -/
def result (c : Progress σ) : EStateM.Result Stop (Machine σ) Unit :=
  match c.stop with
  | none => .ok () c.machine
  | some e => .error e c.machine

end Progress

/-- A single step; there is none when nothing is left to do. -/
def step (s : Settings σ) (c : Progress σ) : Progress σ :=
  match c.work, c.stop with
  | [], _ => c
  | t :: rest, none =>
    match t.expand s c.machine with
    | .ok ts m => ⟨ts ++ rest, none, m⟩
    | .error e m => ⟨rest, some e, m⟩
  | t :: rest, some e => ⟨rest, some e, t.undo c.machine⟩

section

variable {s : Settings σ} {t : Task} {rest ts : List Task} {e : Stop}
  {m m' : Machine σ}

theorem step_ok (h : t.expand s m = .ok ts m') :
    step s ⟨t :: rest, none, m⟩ = ⟨ts ++ rest, none, m'⟩ := by
  unfold step
  dsimp only
  rw [h]

theorem step_error (h : t.expand s m = .error e m') :
    step s ⟨t :: rest, none, m⟩ = ⟨rest, some e, m'⟩ := by
  unfold step
  dsimp only
  rw [h]

/-- Only a task that fails brings processing to a stop. -/
theorem exists_of_stopped (h : (step s ⟨t :: rest, none, m⟩).stop = some e) :
    ∃ m', t.expand s m = .error e m' := by
  cases hexpand : t.expand s m with
  | ok ts m' =>
    rw [step_ok hexpand] at h
    cases h
  | error e m' =>
    rw [step_error hexpand] at h
    cases h
    exact ⟨m', rfl⟩

theorem step_stopped :
    step s ⟨t :: rest, some e, m⟩ = ⟨rest, some e, t.undo m⟩ := rfl

end

/-- How far processing of a root gets in so many steps. -/
def progress (s : Settings σ) (n : Node) (m : Machine σ) (k : Nat) :
    Progress σ :=
  (step s)^[k] (.beginning n m)

theorem progress_succ (s : Settings σ) (n : Node) (m : Machine σ) (k : Nat) :
    progress s n m (k + 1) = step s (progress s n m k) :=
  Function.iterate_succ_apply' ..

/-- An element is a loop over a range that has a floating bound. -/
structure FloatingLoop (s : Settings σ) (n : Node) (m : Machine σ) :
    Prop where
  included : included s.uri n m.scopes.environment = .ok true
  loop : Directive.ofNode? s.uri n = some .loop
  bounds : ∃ spec b, loopSpec n m.scopes.environment = .ok spec
    ∧ loopKind n spec m.scopes.environment = .ok (.range b)
    ∧ b.isFloating = true

/-- A loop over a range with a floating bound is what is next to be done. -/
def Progress.Floating (s : Settings σ) (c : Progress σ) : Prop :=
  ∃ n rest, c.work = .element n :: rest ∧ c.stop = none
    ∧ FloatingLoop s n c.machine

end Stencil.Template
