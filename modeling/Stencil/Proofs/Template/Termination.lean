/-
Processing ends.

Unless it comes to a loop with a floating bound, finitely many steps are
enough, whatever includes or calls what, and they end as the interpreter does.
As many inclusions and calls are open at any time as the machine counts, and
where as many are open as may be, another one is refused, and only there.
-/
import Stencil.Proofs.Template.Frame
import Stencil.Proofs.Template.Simulation

namespace Stencil.Template

open Markup (Attribute Node Tree)

variable {σ : Type} {s : Settings σ} {c : Progress σ}

-- =============================================================== refusals

/-- A call of a macro that is defined is what is next to be done. -/
structure Progress.Calls (s : Settings σ) (c : Progress σ) (n : Node)
    (name : String) (rest : List Task) : Prop where
  work : c.work = .element n :: rest
  running : c.stop = none
  included : included s.uri n c.machine.scopes.environment = .ok true
  call : Directive.ofNode? s.uri n = some .call
  named : ∃ text, substituted n "name" c.machine.scopes.environment = .ok text
    ∧ text.getD "" = name
  defined : ∃ body, c.machine.scopes.defined? name = some body

/-- An inclusion with a reference is what is next to be done. -/
structure Progress.Includes (s : Settings σ) (c : Progress σ) (n : Node)
    (href : String) (rest : List Task) : Prop where
  work : c.work = .element n :: rest
  running : c.stop = none
  included : included s.uri n c.machine.scopes.environment = .ok true
  inclusion : Directive.ofNode? s.uri n = some .inclusion
  referring : substituted n "href" c.machine.scopes.environment
    = .ok (some href)

/-- The next step takes the first task off for a fault. -/
def Progress.Refuses (s : Settings σ) (c : Progress σ) (rest : List Task)
    (d : Diagnostic) : Prop :=
  step s c = ⟨rest, some (.failed d), c.machine⟩

section

variable {n : Node} {rest : List Task} {m : Machine σ}

theorem expand_directive {d : Directive}
    (hincluded : included s.uri n m.scopes.environment = .ok true)
    (hd : Directive.ofNode? s.uri n = some d) :
    (Task.element n).expand s m = Task.directive s n d m := by
  show (read (included s.uri n) >>= _) m = _
  rw [bind_ok (read_ok hincluded), if_pos rfl, hd]

/-- A directive that asks for room, and goes on where there is some, is
refused where there is none. -/
theorem refuses_iff_full {d : Directive} {e : Diagnostic}
    (tasks : Run σ (List Task))
    (hcounted : Counted ⟨.element n :: rest, none, m⟩)
    (hincluded : included s.uri n m.scopes.environment = .ok true)
    (hd : Directive.ofNode? s.uri n = some d)
    (hasks : Task.directive s n d m
      = (if m.nesting < nestingLimit then tasks else fail e) m)
    (hgoes : ∃ ts m', tasks m = .ok ts m') :
    Progress.Refuses s ⟨.element n :: rest, none, m⟩ rest e
      ↔ (⟨.element n :: rest, none, m⟩ : Progress σ).opened.length
        = nestingLimit := by
  have bound : m.nesting ≤ nestingLimit := hcounted.bound
  have count : m.nesting = _ := hcounted.nesting
  have hexpand := expand_directive hincluded hd
  rw [hasks] at hexpand
  unfold Progress.Refuses
  rw [← count]
  -- with room left the step goes on, and as many are open as are counted
  by_cases hroom : m.nesting < nestingLimit
  · obtain ⟨ts, m', htasks⟩ := hgoes
    rw [if_pos hroom, htasks] at hexpand
    rw [step_ok hexpand]
    constructor
    · intro hstep
      have stopped := congrArg Progress.stop hstep
      cases stopped
    · intro hfull
      omega
  · rw [if_neg hroom] at hexpand
    have hrefused : step s ⟨.element n :: rest, none, m⟩ = _ :=
      step_error hexpand
    constructor
    · intro _
      omega
    · intro _
      exact hrefused

end

theorem call_refused_iff {n : Node} {name : String} {rest : List Task}
    (hcounted : Counted c) (h : c.Calls s n name rest) :
    c.Refuses s rest (.on n "name" (.callsTooDeep name))
      ↔ c.opened.length = nestingLimit := by
  obtain ⟨work, stop, m⟩ := c
  obtain ⟨text, hnamed, rfl⟩ := h.named
  obtain ⟨body, hdefined⟩ := h.defined
  obtain rfl : work = .element n :: rest := h.work
  obtain rfl : stop = none := h.running
  have hdefined : m.scopes.defined? (text.getD "") = some body := hdefined
  have hread : (read (substituted n "name") : Run σ _) m = .ok text m :=
    read_ok hnamed
  refine refuses_iff_full (tasksInScope n (pure [.invoke n body])) hcounted
    h.included h.call ?_ ⟨_, _, rfl⟩
  show (read (substituted n "name") >>= _) m = _
  have hmachine : (get : Run σ (Machine σ)) m = .ok m m := rfl
  rw [bind_ok hread, bind_ok hmachine, hdefined]

theorem inclusion_refused_iff {n : Node} {href : String} {rest : List Task}
    (hcounted : Counted c) (h : c.Includes s n href rest) :
    c.Refuses s rest (.on n "href" (.inclusionsTooDeep href))
      ↔ c.opened.length = nestingLimit := by
  obtain ⟨work, stop, m⟩ := c
  obtain rfl : work = .element n :: rest := h.work
  obtain rfl : stop = none := h.running
  have hread : (read (substituted n "href") : Run σ _) m
    = .ok (some href) m := read_ok h.referring
  refine refuses_iff_full (pure [.fetch n href]) hcounted h.included
    h.inclusion ?_ ⟨_, _, rfl⟩
  show (read (substituted n "href") >>= _) m = _
  rw [bind_ok hread]
  rfl

-- =================================================================== passes

theorem defineAll_passes (p : Nat) (ns : List Node) :
    defineAll { s with passes := p } ns = defineAll s ns := by
  induction ns with
  | nil => rfl
  | cons n ns ih =>
    unfold defineAll
    rw [ih]

theorem bindParams_passes (p : Nat) (n : Node) (children : List Node) :
    bindParams { s with passes := p } n children
      = bindParams s n children := by
  induction children with
  | nil => rfl
  | cons child rest ih =>
    unfold bindParams
    rw [ih]

/-- Steps do not look at how many passes are granted. -/
theorem expand_passes (p : Nat) (t : Task) :
    t.expand { s with passes := p } = t.expand s := by
  cases t with
  | contents trim n =>
    show (defineAll _ n.children >>= _) = _
    rw [defineAll_passes]
    rfl
  | invoke n body =>
    show (bindParams _ n n.children >>= _) = _
    rw [bindParams_passes]
    rfl
  | items trim front parent ts => cases ts <;> rfl
  | cases n ts => cases ts <;> rfl
  | each n spec i vs => cases vs <;> rfl
  | whole n name step k i => cases k <;> rfl
  | copyTrees is parent ts => cases ts <;> rfl
  | _ => rfl

theorem step_passes (p : Nat) : step { s with passes := p } = step s := by
  funext c
  unfold step
  split
  · rfl
  · rw [expand_passes]
  · rfl

-- ==================================================================== ending

/-- Nothing happens any more when nothing is left to do. -/
theorem iterate_done (h : c.work = []) (k : Nat) : (step s)^[k] c = c := by
  refine Function.iterate_fixed ?_ k
  obtain ⟨work, stop, m⟩ := c
  obtain rfl : work = [] := h
  rfl

/-- Steps that have come to an end have come to the only one. -/
theorem done_unique {j k : Nat} (hj : ((step s)^[j] c).work = [])
    (hk : ((step s)^[k] c).work = []) : (step s)^[j] c = (step s)^[k] c := by
  rcases Nat.le_total j k with hjk | hkj
  · obtain ⟨i, rfl⟩ := Nat.exists_eq_add_of_le hjk
    rw [Nat.add_comm, Function.iterate_add_apply, iterate_done hj]
  · obtain ⟨i, rfl⟩ := Nat.exists_eq_add_of_le hkj
    rw [Nat.add_comm, Function.iterate_add_apply, iterate_done hk]

/-- However many passes are granted, steps end as the interpreter does, or it
is out of passes and they come to a loop with a floating bound. -/
theorem process_simulated (s : Settings σ) (n : Node) {m : Machine σ}
    (h : m.nesting = 0) (p : Nat) :
    (∃ k, (progress s n m k).work = []
      ∧ (progress s n m k).stop ≠ some .unfinished
      ∧ process { s with passes := p } n m = (progress s n m k).result)
    ∨ (∃ m', process { s with passes := p } n m = .error .unfinished m')
      ∧ ∃ k, (progress s n m k).Floating s := by
  -- with a limit of passes the interpreter does what the steps do, or gives up
  -- in a loop with a floating bound
  have arrives := does_process { s with passes := p } n m [] h
  cases hprocess : process { s with passes := p } n m with
  | ok _ m' =>
    rw [hprocess] at arrives
    obtain ⟨-, k, hk⟩ := arrives
    rw [step_passes] at hk
    have hk : progress s n m k = ⟨[], none, m'⟩ := hk
    refine .inl ⟨k, ?_⟩
    rw [hk]
    exact ⟨rfl, nofun, rfl⟩
  | error e m' =>
    rw [hprocess] at arrives
    cases e with
    | failed d =>
      obtain ⟨k, hk⟩ := arrives
      rw [step_passes] at hk
      have hk : progress s n m k = ⟨[], some (.failed d), m'⟩ := hk
      refine .inl ⟨k, ?_⟩
      rw [hk]
      exact ⟨rfl, nofun, rfl⟩
    | unfinished =>
      obtain ⟨c', ⟨k, hk⟩, n', rest, hwork, hstop, hloop⟩ :=
        arrives.resolve_left id
      rw [step_passes] at hk
      have hk : progress s n m k = c' := hk
      refine .inr ⟨⟨m', rfl⟩, k, ?_⟩
      rw [hk]
      exact ⟨n', rest, hwork, hstop, hloop.included, hloop.loop, hloop.bounds⟩

/-- A loop is what is next to be done. -/
def Progress.loops (s : Settings σ) (c : Progress σ) : Bool :=
  match c.work with
  | .element n :: _ => Directive.ofNode? s.uri n = some .loop
  | _ => false

theorem loops_of_floating (h : c.Floating s) : c.loops s = true := by
  obtain ⟨n, rest, hwork, -, hloop⟩ := h
  unfold Progress.loops
  rw [hwork]
  exact decide_eq_true hloop.loop

/-- Steps that come to an end and to no loop before come to none that has a
floating bound. -/
theorem never_floating {n : Node} {m : Machine σ} {j : Nat}
    (hdone : (progress s n m j).work = [])
    (hloops : ∀ k < j, (progress s n m k).loops s = false) (k : Nat) :
    ¬ (progress s n m k).Floating s := by
  intro hfloating
  rcases Nat.lt_or_ge k j with hk | hk
  · have loops := loops_of_floating hfloating
    rw [hloops k hk] at loops
    cases loops
  · obtain ⟨i, rfl⟩ := Nat.exists_eq_add_of_le hk
    obtain ⟨n', rest, hwork, -, -⟩ := hfloating
    have stays : progress s n m (j + i) = progress s n m j := by
      rw [progress, Nat.add_comm, Function.iterate_add_apply]
      exact iterate_done hdone i
    rw [stays, hdone] at hwork
    cases hwork

/-- Processing ends unless it comes to a loop with a floating bound: there is
a number of steps that is enough, and the interpreter ends as they do however
many passes it is granted. As many inclusions and calls are open at any time
as are counted, a hundred at most; where as many are open, and only there, a
call of a macro that is defined is refused, and an inclusion. -/
theorem processing_terminates (s : Settings σ) (n : Node) (m : Machine σ)
    (h : m.nesting = 0) :
    (∀ k, (progress s n m k).machine.nesting
        = (progress s n m k).opened.length
      ∧ (progress s n m k).opened.length ≤ nestingLimit)
    ∧ ((∀ k, ¬ (progress s n m k).Floating s) →
      ∃ k, (progress s n m k).work = []
        ∧ (progress s n m k).stop ≠ some .unfinished
        ∧ ∀ p, process { s with passes := p } n m
          = (progress s n m k).result)
    ∧ (∀ p, (∃ k, (progress s n m k).work = []
        ∧ (progress s n m k).stop ≠ some .unfinished
        ∧ process { s with passes := p } n m = (progress s n m k).result)
      ∨ (∃ m', process { s with passes := p } n m = .error .unfinished m')
        ∧ ∃ k, (progress s n m k).Floating s)
    ∧ (∀ k n' name rest, (progress s n m k).Calls s n' name rest →
      ((progress s n m k).Refuses s rest (.on n' "name" (.callsTooDeep name))
        ↔ (progress s n m k).opened.length = nestingLimit))
    ∧ (∀ k n' href rest, (progress s n m k).Includes s n' href rest →
      ((progress s n m k).Refuses s rest
          (.on n' "href" (.inclusionsTooDeep href))
        ↔ (progress s n m k).opened.length = nestingLimit)) := by
  have counted := counted_progress s n h
  refine ⟨fun k => ⟨(counted k).nesting, ?_⟩, fun hnone => ?_,
    process_simulated s n h, fun k _ _ _ => call_refused_iff (counted k),
    fun k _ _ _ => inclusion_refused_iff (counted k)⟩
  · rw [← (counted k).nesting]
    exact (counted k).bound
  -- where no such loop is come to, every limit gives the same
  · have ends (p : Nat) := (process_simulated s n h p).resolve_right
      fun ⟨_, k, hfloating⟩ => hnone k hfloating
    obtain ⟨k, hwork, hstop, -⟩ := ends 0
    refine ⟨k, hwork, hstop, fun p => ?_⟩
    obtain ⟨j, hwork', -, hresult⟩ := ends p
    rw [hresult]
    exact congrArg Progress.result (done_unique hwork' hwork)

/-- An inclusion, a macro of it, and a call of the macro. -/
def including : Tree :=
  directive 3 "include" [⟨.ofText "href", none, "a"⟩] []

def defining : Tree :=
  directive 2 "macro" [⟨.ofText "name", none, "m"⟩] [including]

def caller : Tree :=
  directive 4 "call" [⟨.ofText "name", none, "m"⟩] []

def calling : Node :=
  ⟨.given 0, directive 1 "template" [] [defining, caller], []⟩

/-- There are no documents, and what is sent is not kept. -/
def vacant : Settings Unit :=
  ⟨"x", ⟨fun _ _ => ((), none)⟩, .memory [], 0⟩

def ready : Machine Unit := ⟨.single (.fresh calling none), 0, .empty, ()⟩

/-- The macro is called and comes to the inclusion, and neither is refused;
it ends for the document that is not there. -/
theorem processing_terminates_calling :
    let c := progress vacant calling ready
    ready.nesting = 0
    ∧ (∀ k, ¬ (c k).Floating vacant)
    ∧ (∃ k, (c k).work = []
      ∧ ∀ p, process { vacant with passes := p } calling ready
        = (c k).result)
    ∧ (∃ n rest, (c 4).Calls vacant n "m" rest
      ∧ ¬ (c 4).Refuses vacant rest (.on n "name" (.callsTooDeep "m")))
    ∧ ∃ n rest, (c 8).Includes vacant n "a" rest
      ∧ ¬ (c 8).Refuses vacant rest
        (.on n "href" (.inclusionsTooDeep "a")) := by
  have hnone : ∀ k, ¬ (progress vacant calling ready k).Floating vacant :=
    never_floating (show (progress vacant calling ready 20).work = [] by
      with_unfolding_all rfl) (by decide +kernel)
  have calls : (progress vacant calling ready 4).Calls vacant
      (calling.below caller) "m" [.items false false calling []] :=
    { work := by with_unfolding_all rfl
      running := by with_unfolding_all rfl
      included := by with_unfolding_all rfl
      call := by decide
      named := ⟨some "m", by with_unfolding_all rfl, rfl⟩
      defined := ⟨calling.below defining, by with_unfolding_all rfl⟩ }
  have includes : (progress vacant calling ready 8).Includes vacant
      ((calling.below defining).below including) "a"
      [.items true false (calling.below defining) [],
        .close (calling.below caller), .leave,
        .items false false calling []] :=
    { work := by with_unfolding_all rfl
      running := by with_unfolding_all rfl
      included := by with_unfolding_all rfl
      inclusion := by decide
      referring := by with_unfolding_all rfl }
  obtain ⟨-, ends, -, call, inclusion⟩ :=
    processing_terminates vacant calling ready rfl
  obtain ⟨k, hwork, -, hresult⟩ := ends hnone
  refine ⟨rfl, hnone, ⟨k, hwork, hresult⟩, ⟨_, _, calls, ?_⟩,
    ⟨_, _, includes, ?_⟩⟩
  · rw [call 4 _ _ _ calls]
    decide +kernel
  · rw [inclusion 8 _ _ _ includes]
    decide +kernel

end Stencil.Template
