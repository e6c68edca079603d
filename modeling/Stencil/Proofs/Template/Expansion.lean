/-
What holds of the expansions of tasks.

A task either opens or leaves something, or it is plain. What a plain task puts
in its place is plain too, but for an inclusion or a call that there is room
for, and stands in scopes that are left behind it. So a property of expansions
that survives the few ways in which they are put together holds of every plain
task: `Expansive.expand`. What a step does to the machine enters by another
property, of the actions at the front of an expansion.
-/
import Stencil.Proofs.Template.Congruence
import Stencil.Proofs.Template.Steps

namespace Stencil.Template

open Markup (Node Tree)
open Output (Event)

variable {σ : Type}

/-- A task that opens nothing by itself and leaves nothing. -/
def Task.isPlain : Task → Bool
  | .fetch _ _ => false
  | .invoke _ _ => false
  | .leave => false
  | .close _ => false
  | _ => true

/-- The tasks are all plain. -/
def Plainly (ts : List Task) : Prop := ∀ t ∈ ts, t.isPlain = true

theorem plainly_none : Plainly [] := nofun

theorem plainly_one {t : Task} (h : t.isPlain = true) : Plainly [t] := by
  intro u hu
  rw [List.mem_singleton.1 hu]
  exact h

theorem plainly_two {t u : Task} (ht : t.isPlain = true)
    (hu : u.isPlain = true) : Plainly [t, u] := by
  intro v hv
  rcases List.mem_cons.1 hv with rfl | hv
  · exact ht
  · rw [List.mem_singleton.1 hv]
    exact hu

/-- `P` holds of what plain tasks are expanded to, on a machine, if `Q` holds
of the actions in front. -/
structure Expansive (s : Settings σ) (Q : Run σ Unit → Prop)
    (P : Machine σ → Run σ (List Task) → Prop) : Prop where
  steps : Stepwise s s (Alone Q)
  sending (e : Event) : Q (send s e)
  fault (m : Machine σ) (d : Diagnostic) : P m (fail d)
  reading {α : Type} {m : Machine σ} {r : Reading α}
    {f : α → Run σ (List Task)} :
    (∀ a, P m (f a)) → P m (read r >>= f)
  state {m : Machine σ} {f : Machine σ → Run σ (List Task)} :
    P m (f m) → P m (get >>= f)
  acting {m : Machine σ} {x : Run σ Unit} {f : Run σ (List Task)} :
    Q x → (∀ m, P m f) → P m (x >>= fun _ => f)
  inScope {m : Machine σ} {tasks : Run σ (List Task)} (anchor : Node) :
    P { m with scopes := m.scopes.push anchor } tasks →
    P m (tasksInScope anchor tasks)
  behind {m : Machine σ} {tasks : Run σ (List Task)} {t : Task} :
    P m tasks → t.isPlain = true →
    P m (do let ts ← tasks; pure (ts ++ [t]))
  plain {m : Machine σ} {ts : List Task} : Plainly ts → P m (pure ts)
  fetching {m : Machine σ} {n : Node} (href : String) :
    Directive.ofNode? s.uri n = some .inclusion →
    m.nesting < nestingLimit → P m (pure [.fetch n href])
  invoking {m : Machine σ} {n : Node} (body : Node) :
    Directive.ofNode? s.uri n = some .call →
    m.nesting < nestingLimit → P m (pure [.invoke n body])

namespace Expansive

variable {s : Settings σ} {Q : Run σ Unit → Prop}
  {P : Machine σ → Run σ (List Task) → Prop} {m : Machine σ}

-- ============================================================== directives

theorem nothing (e : Expansive s Q P) : P m (pure []) := e.plain plainly_none

theorem one (e : Expansive s Q P) {t : Task} (h : t.isPlain = true) :
    P m (pure [t]) := e.plain (plainly_one h)

theorem two (e : Expansive s Q P) {t u : Task} (ht : t.isPlain = true)
    (hu : u.isPlain = true) : P m (pure [t, u]) :=
  e.plain (plainly_two ht hu)

theorem inclusion (e : Expansive s Q P) {n : Node}
    (hn : Directive.ofNode? s.uri n = some .inclusion) :
    P m (Task.inclusion n) := by
  refine e.reading fun href => ?_
  cases href with
  | none => exact e.fault m _
  | some href =>
    refine e.state ?_
    split
    · next hroom => exact e.fetching href hn hroom
    · exact e.fault m _

theorem call (e : Expansive s Q P) {n : Node}
    (hn : Directive.ofNode? s.uri n = some .call) : P m (Task.call n) := by
  refine e.reading fun name => ?_
  refine e.state ?_
  split
  · exact e.fault m _
  · split
    · next hroom => exact e.inScope n (e.invoking _ hn hroom)
    · exact e.fault m _

theorem condition (e : Expansive s Q P) (n : Node) :
    P m (Task.condition n) := by
  refine e.reading fun test => ?_
  cases test with
  | none => exact e.fault m _
  | some test =>
    refine e.reading fun b => ?_
    split
    · exact e.inScope n (e.one rfl)
    · exact e.nothing

theorem loop (e : Expansive s Q P) (n : Node) : P m (Task.loop n) := by
  refine e.reading fun spec => e.reading fun kind => ?_
  cases kind with
  | items values => exact e.inScope n (e.one rfl)
  | range b =>
    dsimp only
    split
    · refine e.reading fun r => ?_
      split
      · exact e.nothing
      · exact e.inScope n (e.one rfl)
    · refine e.reading fun r => ?_
      split
      · exact e.nothing
      · exact e.inScope n (e.one rfl)

theorem copy (e : Expansive s Q P) (n : Node) : P m (Task.copy s n) := by
  refine e.reading fun text => ?_
  cases text with
  | none => exact e.fault m _
  | some text =>
    refine e.inScope n ?_
    refine e.reading fun source => e.reading fun whole => ?_
    refine e.reading fun is => ?_
    split
    · exact e.one rfl
    · exact e.inScope source (e.one rfl)

theorem directive (e : Expansive s Q P) {n : Node} {d : Directive}
    (hn : Directive.ofNode? s.uri n = some d) :
    P m (Task.directive s n d) := by
  cases d with
  | failure => exact e.acting (e.steps.explicitFailure n) fun _ => e.nothing
  | doctype => exact e.acting (e.steps.doctypes n) fun _ => e.nothing
  | inclusion => exact e.inclusion hn
  | assignment => exact e.acting (e.steps.assignment n) fun _ => e.nothing
  | condition => exact e.condition n
  | switch => exact e.one rfl
  | loop => exact e.loop n
  | call => exact e.call hn
  | comment => exact e.nothing
  | copy => exact e.copy n
  | definition => exact e.nothing
  | _ => exact e.fault m _

-- ================================================================== others

theorem literal (e : Expansive s Q P) (n : Node) : P m (Task.literal s n) := by
  unfold Task.literal
  cases n.element? with
  | none => exact e.nothing
  | some element =>
    refine e.reading fun attributes => ?_
    exact e.acting (e.sending _) fun _ => e.two rfl rfl

theorem root (e : Expansive s Q P) (n : Node) : P m (Task.root s n) := by
  unfold Task.root
  split
  · exact e.one rfl
  · exact e.one rfl

theorem item (e : Expansive s Q P) (n : Node) (front back : Bool) {rest : Task}
    (hrest : rest.isPlain = true) : P m (Task.item s n front back rest) := by
  have alone : Alone Q (Template.item s n front back (pure ()))
      (Template.item s n front back (pure ())) :=
    e.steps.item n front back e.steps.skip
  unfold Task.item
  split
  · split
    · exact e.one hrest
    · exact e.two rfl hrest
  · exact e.acting alone fun _ => e.one hrest

theorem nextItem (e : Expansive s Q P) (trim front : Bool) (parent : Node)
    (t : Tree) (ts : List Tree) :
    P m (Task.nextItem s trim front parent t ts) := by
  unfold Task.nextItem
  dsimp only
  split
  · exact e.one rfl
  · split
    · exact e.nothing
    · exact e.item _ front _ rfl

theorem copied (e : Expansive s Q P) (is : List (Intercept Unit))
    (source : Node) : P m (Task.copied s is source) := by
  unfold Task.copied
  split
  · split
    · next i _ =>
      have captured := e.steps.optional i.node i.capture (.element source)
      exact e.inScope _ (e.acting captured fun _ => e.one rfl)
    · refine e.acting (e.sending _) fun m => ?_
      exact e.behind (e.inScope source (e.one rfl)) rfl
  · exact e.acting (e.steps.cdata _) fun _ => e.nothing
  · exact e.acting (e.sending _) fun _ => e.nothing
  · exact e.nothing

-- =================================================================== tasks

/-- What is put in place of a plain task. -/
theorem expand (e : Expansive s Q P) {t : Task} (h : t.isPlain = true) :
    P m (t.expand s) := by
  cases t with
  | execute n => exact e.root n
  | element n =>
    refine e.reading fun b => ?_
    split
    · split
      · next hn => exact e.directive hn
      · exact e.literal n
    · exact e.nothing
  | contents trim n =>
    exact e.acting (e.steps.defineAll _) fun _ => e.one rfl
  | items trim front parent ts =>
    cases ts with
    | nil => exact e.nothing
    | cons t ts => exact e.nextItem trim front parent t ts
  | cases n ts =>
    cases ts with
    | nil => exact e.nothing
    | cons t ts =>
      refine e.reading fun b => ?_
      split
      · exact e.inScope _ (e.one rfl)
      · exact e.one rfl
  | each n spec i vs =>
    cases vs with
    | nil => exact e.nothing
    | cons v vs =>
      refine e.acting (e.steps.optional n spec.name v) fun _ => ?_
      refine e.acting (e.steps.optional n spec.index _) fun _ => ?_
      exact e.two rfl rfl
  | whole n name step k i =>
    cases k with
    | zero => exact e.nothing
    | succ k =>
      exact e.acting (e.steps.optional n name _) fun _ => e.two rfl rfl
  | floating n name r up x =>
    refine e.acting (e.steps.optional n name _) fun _ => ?_
    dsimp only
    split
    · exact e.two rfl rfl
    · exact e.one rfl
  | copyTree is source => exact e.copied is source
  | copyTrees is parent ts =>
    cases ts with
    | nil => exact e.nothing
    | cons t ts => exact e.two rfl rfl
  | send event => exact e.acting (e.sending event) fun _ => e.nothing
  -- the four kinds that are not plain: they open or close something
  | fetch n href => cases h
  | invoke n body => cases h
  | leave => cases h
  | close n => cases h

end Expansive

end Stencil.Template
