/-
Steps do what the interpreter does.

From a task on top of others the steps come to the others, on the machine
that the interpreter leaves when it processes what the task stands for; if it
stops for a fault, the steps come to them for the same fault. Only where the
interpreter runs out of passes there need not be an end of the steps, but then
they come to a loop with a floating bound.

That is `Does`, for a list of tasks and a run, where `k` inclusions and calls
are open. It is proved along the interpreter; `Expands` says the same of the
expansion of a task, which is where the two are compared step by step.
-/
import Stencil.Proofs.Template.Nesting

namespace Stencil.Template

open Stencil.Expr (Value)
open Markup (Node Origin Tree)

variable {σ : Type} {s : Settings σ}

-- ================================================================= reaching

/-- Some number of steps leads there. -/
def Reaches (s : Settings σ) (c c' : Progress σ) : Prop :=
  ∃ k, (step s)^[k] c = c'

theorem Reaches.refl (c : Progress σ) : Reaches s c c := ⟨0, rfl⟩

theorem Reaches.trans {a b c : Progress σ} (hab : Reaches s a b)
    (hbc : Reaches s b c) : Reaches s a c := by
  obtain ⟨k, rfl⟩ := hab
  obtain ⟨l, rfl⟩ := hbc
  exact ⟨l + k, Function.iterate_add_apply _ l k a⟩

theorem Reaches.head {a b : Progress σ} (h : Reaches s (step s a) b) :
    Reaches s a b :=
  Reaches.trans ⟨1, rfl⟩ h

theorem Reaches.tail {a b : Progress σ} (h : Reaches s a b) :
    Reaches s a (step s b) :=
  h.trans ⟨1, rfl⟩

/-- What the steps come to when the interpreter ends so: `rest` is left to do
where it was left. If it runs out of passes, `excuse` holds or a loop with a
floating bound is come to. -/
def Arrives (s : Settings σ) (excuse : Prop) (k : Nat) (c : Progress σ)
    (rest : List Task) : EStateM.Result Stop (Machine σ) Unit → Prop
  | .ok _ m => m.nesting = k ∧ Reaches s c ⟨rest, none, m⟩
  | .error (.failed d) m => Reaches s c ⟨rest, some (.failed d), m⟩
  | .error .unfinished _ => excuse ∨ ∃ c', Reaches s c c' ∧ c'.Floating s

/-- The steps for some tasks do what a run does. -/
def Does (s : Settings σ) (excuse : Prop) (k : Nat) (ts : List Task)
    (x : Run σ Unit) : Prop :=
  ∀ m rest, m.nesting = k →
    Arrives s excuse k ⟨ts ++ rest, none, m⟩ rest (x m)

/-- What an expansion leaves to do is what a run does, and it fails as the run
does. -/
def Expands (s : Settings σ) (excuse : Prop) (k : Nat) (m : Machine σ)
    (tasks : Run σ (List Task)) (x : Run σ Unit) : Prop :=
  match tasks m with
  | .ok ts m' => ∀ rest, Arrives s excuse k ⟨ts ++ rest, none, m'⟩ rest (x m)
  | .error e m' => (∃ d, e = .failed d) ∧ x m = .error e m'

section

variable {excuse : Prop} {k : Nat} {c c' : Progress σ} {m : Machine σ}
  {rest : List Task} {x y : Run σ Unit} {α β : Type}

-- ================================================================= arriving

theorem Arrives.weaken {r : EStateM.Result Stop (Machine σ) Unit}
    (h : Arrives s False k c rest r) : Arrives s excuse k c rest r := by
  cases r with
  | ok _ m => exact h
  | error e m =>
    cases e with
    | failed d => exact h
    | unfinished => exact .inr (h.resolve_left id)

theorem Arrives.before {r : EStateM.Result Stop (Machine σ) Unit}
    (hc : Reaches s c c') (h : Arrives s excuse k c' rest r) :
    Arrives s excuse k c rest r := by
  cases r with
  | ok _ m => exact ⟨h.1, hc.trans h.2⟩
  | error e m =>
    cases e with
    | failed d => exact hc.trans h
    | unfinished =>
      rcases h with hexcuse | ⟨c'', hreach, hfloating⟩
      · exact .inl hexcuse
      · exact .inr ⟨c'', hc.trans hreach, hfloating⟩

/-- There is no need of an excuse that is a loop with a floating bound. -/
theorem Arrives.excused {r : EStateM.Result Stop (Machine σ) Unit}
    (hexcuse : excuse → c.Floating s) (h : Arrives s excuse k c rest r) :
    Arrives s False k c rest r := by
  cases r with
  | ok _ m => exact h
  | error e m =>
    cases e with
    | failed d => exact h
    | unfinished =>
      rcases h with hex | hreached
      · exact .inr ⟨c, .refl c, hexcuse hex⟩
      · exact .inr hreached

theorem Expands.weaken {f : Run σ (List Task)} (h : Expands s False k m f x) :
    Expands s excuse k m f x := by
  unfold Expands at h ⊢
  cases hf : f m with
  | ok ts m' =>
    rw [hf] at h
    exact fun rest => (h rest).weaken
  | error e m' =>
    rw [hf] at h
    exact h

theorem Does.weaken {ts : List Task} (h : Does s False k ts x) :
    Does s excuse k ts x :=
  fun m rest hm => (h m rest hm).weaken

/-- Tasks that are not come to leave nothing behind. -/
def Plain (ts : List Task) : Prop :=
  ∀ t ∈ ts, ∀ m : Machine σ, t.undo m = m

theorem plain_none : Plain (σ := σ) [] := by
  intro t ht
  cases ht

theorem plain_one {t : Task} (h : ∀ m : Machine σ, t.undo m = m) :
    Plain (σ := σ) [t] := by
  intro u hu
  rw [List.mem_singleton.1 hu]
  exact h

theorem reaches_undone {us : List Task} (h : Plain (σ := σ) us) (e : Stop) :
    Reaches s ⟨us ++ rest, some e, m⟩ ⟨rest, some e, m⟩ := by
  induction us with
  | nil => exact .refl _
  | cons u us ih =>
    refine .head ?_
    rw [List.cons_append, step_stopped, h u (List.mem_cons_self ..) m]
    exact ih fun v hv => h v (List.mem_cons_of_mem u hv)

theorem arrives_seq {us : List Task}
    (hx : Arrives s excuse k c (us ++ rest) (x m)) (hy : Does s excuse k us y)
    (hus : Plain (σ := σ) us) :
    Arrives s excuse k c rest ((x >>= fun _ => y) m) := by
  refine bind_cases (Arrives s excuse k c rest) (fun _ m' h => ?_)
    fun e m' h => ?_
  · rw [h] at hx
    exact (hy m' rest hx.1).before hx.2
  · rw [h] at hx
    cases e with
    | failed d => exact Reaches.trans hx (reaches_undone hus _)
    | unfinished => exact hx

-- ==================================================================== doing

theorem does_nothing : Does s excuse k [] (pure ()) :=
  fun _ _ hm => ⟨hm, .refl _⟩

theorem does_append {ts us : List Task} (hx : Does s excuse k ts x)
    (hy : Does s excuse k us y) (hus : Plain (σ := σ) us) :
    Does s excuse k (ts ++ us) (x >>= fun _ => y) := by
  intro m rest hm
  rw [List.append_assoc]
  exact arrives_seq (hx m (us ++ rest) hm) hy hus

/-- The step that expands a task. -/
theorem arrives_of_expands {t : Task}
    (h : Expands s excuse k m (t.expand s) x) (rest : List Task) :
    Arrives s excuse k ⟨t :: rest, none, m⟩ rest (x m) := by
  unfold Expands at h
  cases hexpand : t.expand s m with
  | ok ts m' =>
    rw [hexpand] at h
    exact (h rest).before ⟨1, step_ok hexpand⟩
  | error e m' =>
    rw [hexpand] at h
    obtain ⟨⟨d, rfl⟩, hx⟩ := h
    rw [hx]
    exact ⟨1, step_error hexpand⟩

theorem does_of_expands {t : Task}
    (h : ∀ m, m.nesting = k → Expands s excuse k m (t.expand s) x) :
    Does s excuse k [t] x :=
  fun m rest hm => arrives_of_expands (h m hm) rest

-- =============================================================== expansions

theorem expands_tasks {ts : List Task} (h : Does s excuse k ts x)
    (hm : m.nesting = k) : Expands s excuse k m (pure ts) x :=
  fun rest => h m rest hm

theorem expands_fail (d : Diagnostic) :
    Expands s excuse k m (fail d) (fail d) :=
  ⟨⟨d, rfl⟩, rfl⟩

/-- The same reading on both sides, or readings that come out alike. -/
theorem expands_alike {Q : α → β → Prop} {r : Reading α} {r' : Reading β}
    {f : α → Run σ (List Task)} {g : β → Run σ Unit}
    (hr : Alike Q (r m.scopes.environment) (r' m.scopes.environment))
    (h : ∀ a b, Q a b → Expands s excuse k m (f a) (g b)) :
    Expands s excuse k m (read r >>= f) (read r' >>= g) := by
  unfold Expands
  generalize ha : r m.scopes.environment = a at hr
  generalize hb : r' m.scopes.environment = b at hr
  cases hr with
  | ok hab =>
    rw [bind_ok (read_ok ha), bind_ok (read_ok hb)]
    exact h _ _ hab
  | error =>
    rw [bind_error (read_error ha), bind_error (read_error hb)]
    exact ⟨⟨_, rfl⟩, rfl⟩

theorem expands_read {r : Reading α} {f : α → Run σ (List Task)}
    {g : α → Run σ Unit}
    (h : ∀ a, r m.scopes.environment = .ok a →
      Expands s excuse k m (f a) (g a)) :
    Expands s excuse k m (read r >>= f) (read r >>= g) := by
  unfold Expands
  cases hr : r m.scopes.environment with
  | ok a =>
    rw [bind_ok (read_ok hr), bind_ok (read_ok hr)]
    exact h a hr
  | error d =>
    rw [bind_error (read_error hr), bind_error (read_error hr)]
    exact ⟨⟨d, rfl⟩, rfl⟩

theorem expands_load {f : Except Loading.Error Markup.Document →
      Run σ (List Task)}
    {g : Except Loading.Error Markup.Document → Run σ Unit} (url : Url)
    (hm : m.nesting = k)
    (h : ∀ d m, m.nesting = k → Expands s excuse k m (f d) (g d)) :
    Expands s excuse k m (load s url >>= f) (load s url >>= g) :=
  h (Loading.load s.source m.cache url).1
    { m with cache := (Loading.load s.source m.cache url).2 } hm

theorem expands_quiet {z : Run σ Unit} {f : Run σ (List Task)} (hz : Quiet z)
    (hm : m.nesting = k)
    (h : ∀ m, m.nesting = k → Expands s excuse k m f x) :
    Expands s excuse k m (z >>= fun _ => f) (z >>= fun _ => x) := by
  have quiet := hz m
  unfold Expands
  cases hz' : z m with
  | ok _ m' =>
    rw [hz'] at quiet
    rw [bind_ok hz', bind_ok hz']
    exact h m' (quiet.trans hm)
  | error e m' =>
    rw [hz'] at quiet
    rw [bind_error hz', bind_error hz']
    exact ⟨quiet.2, rfl⟩

/-- A scope is left behind the tasks in it, and also on a fault. -/
theorem expands_inScope (anchor : Node) {f : Run σ (List Task)}
    (h : Expands s excuse k { m with scopes := m.scopes.push anchor } f x) :
    Expands s excuse k m (tasksInScope anchor f) (inScope anchor x) := by
  unfold Expands at h
  unfold Expands tasksInScope inScope between
  cases hf : f { m with scopes := m.scopes.push anchor } with
  | ok ts m' =>
    rw [hf] at h
    intro rest
    have inside := h (.leave :: rest)
    rw [List.append_assoc]
    cases hx : x { m with scopes := m.scopes.push anchor } with
    | ok _ m'' =>
      rw [hx] at inside
      exact ⟨inside.1, inside.2.tail⟩
    | error e m'' =>
      rw [hx] at inside
      cases e with
      | failed d => exact Reaches.tail inside
      | unfinished => exact inside
  | error e m' =>
    rw [hf] at h
    obtain ⟨hfailed, hx⟩ := h
    rw [hx]
    exact ⟨hfailed, rfl⟩

/-- An inclusion or a call is closed behind what is in it. -/
theorem expands_entered (n : Node) {t : Task}
    (h : Does s excuse (k + 1) [t] x) (hm : m.nesting = k) :
    Expands s excuse k m (entered n t) (nested x) := by
  intro rest
  have inside := h { m with nesting := m.nesting + 1 } (.close n :: rest)
    (congrArg (· + 1) hm)
  unfold nested between
  dsimp only
  cases hx : x { m with nesting := m.nesting + 1 } with
  | ok _ m' =>
    rw [hx] at inside
    exact ⟨congrArg (· - 1) inside.1, inside.2.tail⟩
  | error e m' =>
    rw [hx] at inside
    cases e with
    | failed d => exact Reaches.tail inside
    | unfinished => exact inside

theorem expands_then {f : Run σ (List Task)} {us : List Task}
    (hf : Expands s excuse k m f x) (hy : Does s excuse k us y)
    (hus : Plain (σ := σ) us) :
    Expands s excuse k m (do let ts ← f; pure (ts ++ us))
      (x >>= fun _ => y) := by
  unfold Expands at hf ⊢
  cases hm : f m with
  | ok ts m' =>
    rw [hm] at hf
    rw [bind_ok hm]
    intro rest
    rw [List.append_assoc]
    exact arrives_seq (hf (us ++ rest)) hy hus
  | error e m' =>
    rw [hm] at hf
    rw [bind_error hm]
    exact ⟨hf.1, bind_error hf.2⟩

/-- A step that leaves nothing to do. -/
theorem expands_last {z : Run σ Unit} (hz : Quiet z) (hm : m.nesting = k) :
    Expands s excuse k m (do z; pure []) z := by
  have quiet := hz m
  unfold Expands
  cases hz' : z m with
  | ok _ m' =>
    rw [hz'] at quiet
    rw [bind_ok hz']
    exact fun rest => ⟨quiet.trans hm, .refl _⟩
  | error e m' =>
    rw [hz'] at quiet
    rw [bind_error hz']
    exact ⟨quiet.2, rfl⟩

theorem expands_get {f : Machine σ → Run σ (List Task)}
    {g : Machine σ → Run σ Unit} (h : Expands s excuse k m (f m) (g m)) :
    Expands s excuse k m (get >>= f) (get >>= g) := h

theorem does_send (e : Output.Event) :
    Does s excuse k [.send e] (send s e) :=
  does_of_expands fun _ hm => expands_last (quiet_send s e) hm

end

-- ==================================================== inclusions and calls

/-- What may be opened is done by steps, with one more open; if nothing may,
as many are open as may be. -/
def Opens (s : Settings σ) (k : Nat) : Option (Inner σ) → Prop
  | none => nestingLimit ≤ k
  | some inner => k < nestingLimit
    ∧ (∀ n, Does s False (k + 1) [.execute n] (inner.execute n))
    ∧ ∀ n, Does s False (k + 1) [.contents true n] (inner.expand n)

section

variable {excuse : Prop} {k : Nat} {m : Machine σ} {x : Run σ Unit}
  {inner : Option (Inner σ)}

theorem does_fetch {inner : Inner σ} (hi : Opens s k (some inner)) (n : Node)
    (href : String) :
    Does s False k [.fetch n href] (includeDocument s inner n href) := by
  refine does_of_expands fun m hm => expands_get ?_
  cases Loading.resolveHref m.scopes.base href with
  | error e => exact expands_fail _
  | ok url =>
    refine expands_load url hm fun d m hm => ?_
    cases d with
    | error e => exact expands_fail _
    | ok document =>
      dsimp only
      cases document.rootElement? with
      | none => exact expands_fail _
      | some root =>
        refine expands_inScope root (expands_quiet (fun _ => rfl) hm ?_)
        exact fun m hm => expands_entered n (hi.2.1 root) hm

theorem does_invoke {inner : Inner σ} (hi : Opens s k (some inner))
    (n body : Node) :
    Does s False k [.invoke n body]
      (do bindParams s n n.children; nested (inner.expand body)) := by
  have params := (quiet_stepwise s).bindParams n n.children
  refine does_of_expands fun m hm => expands_quiet params hm fun m hm => ?_
  exact expands_entered n (hi.2.2 body) hm

theorem expands_inclusion (hi : Opens s k inner) (n : Node)
    (hm : m.nesting = k) :
    Expands s False k m (Task.inclusion n) (inclusion s inner n) := by
  refine expands_read fun href _ => ?_
  cases href with
  | none => exact expands_fail _
  | some href =>
    show Expands s False k m
      (if m.nesting < nestingLimit then pure [.fetch n href]
        else fail (.on n "href" (.inclusionsTooDeep href))) _
    cases inner with
    | none =>
      have full : nestingLimit ≤ k := hi
      rw [if_neg (by omega)]
      exact expands_fail _
    | some inner =>
      have room : k < nestingLimit := hi.1
      rw [if_pos (by omega)]
      exact expands_tasks (does_fetch hi n href) hm

theorem expands_call (hi : Opens s k inner) (n : Node) (hm : m.nesting = k) :
    Expands s False k m (Task.call n) (call s inner n) := by
  refine expands_read fun name _ => expands_get ?_
  cases m.scopes.defined? (name.getD "") with
  | none => exact expands_fail _
  | some body =>
    dsimp only
    cases inner with
    | none =>
      have full : nestingLimit ≤ k := hi
      rw [if_neg (by omega)]
      exact expands_fail _
    | some inner =>
      have room : k < nestingLimit := hi.1
      rw [if_pos (by omega)]
      exact expands_inScope n (expands_tasks (does_invoke hi n body) hm)

-- ==================================================================== loops

theorem expands_condition {n : Node} (hx : Does s False k [.contents true n] x)
    (hm : m.nesting = k) :
    Expands s False k m (Task.condition n) (condition n x) := by
  refine expands_read fun test _ => ?_
  cases test with
  | none => exact expands_fail _
  | some test =>
    refine expands_read fun b _ => ?_
    cases b with
    | true => exact expands_inScope n (expands_tasks hx hm)
    | false => exact expands_tasks does_nothing hm

theorem does_each {n : Node} (hx : Does s False k [.contents true n] x)
    (spec : LoopSpec) (i : Nat) (vs : List Value) :
    Does s False k [.each n spec i vs] (itemPasses n spec x i vs) := by
  have q := quiet_stepwise s
  induction vs generalizing i with
  | nil => exact does_of_expands fun m hm => expands_tasks does_nothing hm
  | cons v vs ih =>
    refine does_of_expands fun m hm => ?_
    refine expands_quiet (q.optional n spec.name v) hm fun m hm => ?_
    refine expands_quiet (q.optional n spec.index _) hm fun m hm => ?_
    exact expands_tasks
      (does_append hx (ih (i + 1)) (plain_one fun _ => rfl)) hm

theorem does_whole {n : Node} (hx : Does s False k [.contents true n] x)
    (name : Option String) (step : Int) (count : Nat) (i : Int) :
    Does s False k [.whole n name step count i]
      (wholePasses n name x step count i) := by
  have q := quiet_stepwise s
  induction count generalizing i with
  | zero => exact does_of_expands fun m hm => expands_tasks does_nothing hm
  | succ count ih =>
    refine does_of_expands fun m hm => ?_
    refine expands_quiet (q.optional n name _) hm fun m hm => ?_
    exact expands_tasks
      (does_append hx (ih (i + step)) (plain_one fun _ => rfl)) hm

/-- Steps are not short of passes, but the interpreter may be. -/
theorem does_floating (hexcuse : excuse) {n : Node}
    (hx : Does s False k [.contents true n] x) (name : Option String)
    (r : Range Float) (up : Bool) (fuel : Nat) (v : Float) :
    Does s excuse k [.floating n name r up v]
      (floatPasses n name r up x fuel v) := by
  have q := quiet_stepwise s
  induction fuel generalizing v with
  | zero => exact fun m rest hm => .inl hexcuse
  | succ fuel ih =>
    refine does_of_expands fun m hm => ?_
    refine expands_quiet (q.optional n name _) hm fun m hm => ?_
    dsimp only
    cases r.isInside up (r.next up v) with
    | true =>
      exact expands_tasks
        (does_append hx.weaken (ih _) (plain_one fun _ => rfl)) hm
    | false =>
      exact expands_tasks (does_append hx.weaken does_nothing plain_none) hm

theorem expands_loop {n : Node} (hx : Does s False k [.contents true n] x)
    (hm : m.nesting = k)
    (hexcuse : ∀ spec b, loopSpec n m.scopes.environment = .ok spec →
      loopKind n spec m.scopes.environment = .ok (.range b) →
      b.isFloating = true → excuse) :
    Expands s excuse k m (Task.loop n) (loop s n x) := by
  refine expands_read fun spec hspec => expands_read fun kind hkind => ?_
  cases kind with
  | items values =>
    have each := does_each hx spec 0 values
    exact expands_inScope n (expands_tasks each.weaken hm)
  | range b =>
    dsimp only
    cases hfloating : b.isFloating with
    | true =>
      refine expands_read fun r _ => ?_
      have excused := hexcuse spec b hspec hkind hfloating
      cases r.first == r.last with
      | true => exact expands_tasks does_nothing hm
      | false =>
        exact expands_inScope n
          (expands_tasks (does_floating excused hx spec.name r _ _ _) hm)
    | false =>
      refine expands_read fun r _ => ?_
      by_cases hends : r.first = r.last
      · rw [if_pos hends, if_pos hends]
        exact expands_tasks does_nothing hm
      · rw [if_neg hends, if_neg hends]
        rw [runWhole_eq n _ r x hends, r.stride_eq]
        have whole := does_whole hx spec.name
          (if r.first.toInt < r.last.toInt then r.step.toInt
            else -r.step.toInt) r.passes r.first.toInt
        exact expands_inScope n (expands_tasks whole.weaken hm)

-- =================================================================== copies

/-- The contents of a node are what replaces an element in a copy. -/
def Replaces (s : Settings σ) (k : Nat) (n : Node) (_ : Run Unit Unit)
    (x : Run σ Unit) : Prop :=
  Does s False k [.contents true n] x

theorem expands_intercept {i : Intercept Unit} {i' : Intercept σ}
    (hi : InterceptAlike (Replaces s k) i i') (source : Node)
    (hm : m.nesting = k) :
    Expands s False k m
      (tasksInScope i.node do
        bindOptional i.node i.capture (.element source)
        pure [.contents true i.node])
      (i'.run source) := by
  have captured := (quiet_stepwise s).optional i.node i.capture
    (.element source)
  unfold Intercept.run
  rw [← hi.node, ← hi.capture]
  refine expands_inScope _ (expands_quiet captured hm fun m hm => ?_)
  exact expands_tasks hi.replacement hm

mutual

theorem does_copyTree {is : List (Intercept Unit)} {is' : List (Intercept σ)}
    (h : List.Forall₂ (InterceptAlike (Replaces s k)) is is')
    (origin : Origin) (trail : List Tree) : ∀ tree,
      Does s False k [.copyTree is ⟨origin, tree, trail⟩]
        (copyTree s is' origin trail tree)
  | .node label ts => by
    have below := does_copyTrees h ⟨origin, .node label ts, trail⟩ ts
    refine does_of_expands fun m hm => ?_
    show Expands s False k m (Task.copied s is ⟨origin, .node label ts, trail⟩)
      (copyTree s is' origin trail (.node label ts))
    have content : (⟨origin, .node label ts, trail⟩ : Node).content
      = label.content := rfl
    unfold Task.copied copyTree
    rw [content]
    cases label.content with
    | element e =>
      -- both sides look for the intercept by its tag, and find it or not
      have found := alike_find h e.name.text
      dsimp only
      generalize is.find? _ = i at found ⊢
      generalize is'.find? _ = i' at found ⊢
      cases found with
      | none =>
        refine expands_quiet (quiet_send s _) hm fun m hm => ?_
        exact expands_then (expands_inScope _ (expands_tasks below hm))
          (does_send _) (plain_one fun _ => rfl)
      | some hi => exact expands_intercept hi _ hm
    | text data => exact expands_last (quiet_send s _) hm
    | cdata data => exact expands_last (quiet_sendAll s _) hm
    | _ => exact expands_tasks does_nothing hm
termination_by structural tree => tree

theorem does_copyTrees {is : List (Intercept Unit)} {is' : List (Intercept σ)}
    (h : List.Forall₂ (InterceptAlike (Replaces s k)) is is')
    (parent : Node) : ∀ ts,
      Does s False k [.copyTrees is parent ts]
        (copyTrees s is' parent.origin (parent.tree :: parent.trail) ts)
  | [] => does_of_expands fun m hm => expands_tasks does_nothing hm
  | tree :: ts => by
    have first := does_copyTree h parent.origin (parent.tree :: parent.trail)
      tree
    have rest := does_copyTrees h parent ts
    refine does_of_expands fun m hm => ?_
    exact expands_tasks (does_append first rest (plain_one fun _ => rfl)) hm
termination_by structural ts => ts

end

theorem expands_copy {n : Node} {children : List (Node × Run σ Unit)}
    (h : List.Forall₂ (PairAlike (Replaces s k))
      (n.children.map fun child => (child, pure ())) children)
    (hm : m.nesting = k) :
    Expands s False k m (Task.copy s n) (copy s n children) := by
  refine expands_read fun text _ => ?_
  cases text with
  | none => exact expands_fail _
  | some text =>
    refine expands_inScope n ?_
    refine expands_read fun source _ => expands_read fun whole _ => ?_
    refine expands_alike (alike_intercepts s.uri n h _) fun is is' his => ?_
    unfold copyFrom
    cases whole with
    | true =>
      have tree := does_copyTree his source.origin source.trail source.tree
      exact expands_tasks tree hm
    | false =>
      have trees := does_copyTrees his source source.tree.children
      refine expands_inScope source (expands_tasks trees ?_)
      exact hm

-- ================================================================= elements

/-- What lies in an element is done by steps. -/
structure BelowDone (s : Settings σ) (k : Nat) (n : Node) (below : Below σ) :
    Prop where
  contents (trim : Bool) :
    Does s False k [.contents trim n] (below.contents trim)
  cases : Does s False k [.cases n n.tree.children] below.cases
  replacements : List.Forall₂ (PairAlike (Replaces s k))
    (n.children.map fun child => (child, pure ())) below.replacements

theorem expands_directive (hi : Opens s k inner) {n : Node} {below : Below σ}
    (hb : BelowDone s k n below) (d : Directive) (hm : m.nesting = k)
    (hexcuse : d = .loop → ∀ spec b,
      loopSpec n m.scopes.environment = .ok spec →
      loopKind n spec m.scopes.environment = .ok (.range b) →
      b.isFloating = true → excuse) :
    Expands s excuse k m (Task.directive s n d) (obey s inner n below d) := by
  have q := quiet_stepwise s
  cases d with
  | failure => exact expands_last (q.explicitFailure n) hm
  | doctype => exact expands_last (q.doctypes n) hm
  | inclusion => exact (expands_inclusion hi n hm).weaken
  | assignment => exact expands_last (q.assignment n) hm
  | condition => exact (expands_condition (hb.contents true) hm).weaken
  | switch => exact expands_tasks hb.cases.weaken hm
  | loop => exact expands_loop (hb.contents true) hm (hexcuse rfl)
  | call => exact (expands_call hi n hm).weaken
  | comment => exact expands_tasks does_nothing hm
  | copy => exact (expands_copy hb.replacements hm).weaken
  | definition => exact expands_tasks does_nothing hm
  | _ => exact expands_fail _

theorem expands_literal {n : Node} (hx : Does s False k [.contents false n] x)
    (hm : m.nesting = k) :
    Expands s False k m (Task.literal s n) (literal s n x) := by
  unfold Task.literal literal
  cases n.element? with
  | none => exact expands_tasks does_nothing hm
  | some e =>
    refine expands_read fun attributes _ => ?_
    refine expands_quiet (quiet_send s _) hm fun m hm => ?_
    exact expands_tasks
      (does_append hx (does_send _) (plain_one fun _ => rfl)) hm

theorem does_perform (hi : Opens s k inner) {n : Node} {below : Below σ}
    (hb : BelowDone s k n below) :
    Does s False k [.element n] (perform s inner n below) := by
  intro m rest hm
  suffices h : Expands s (FloatingLoop s n m) k m ((Task.element n).expand s)
      (perform s inner n below) from
    (arrives_of_expands h rest).excused fun floating =>
      ⟨n, rest, rfl, rfl, floating⟩
  refine expands_read fun b hguard => ?_
  cases b with
  | false => exact expands_tasks does_nothing hm
  | true =>
    cases hd : Directive.ofNode? s.uri n with
    | none => exact (expands_literal (hb.contents false) hm).weaken
    | some d =>
      refine expands_directive hi hb d hm fun hloop spec b hspec hkind hb => ?_
      exact ⟨hguard, hloop ▸ hd, spec, b, hspec, hkind, hb⟩

/-- Only where a node is an element does it matter how elements are done. -/
theorem expands_item {n : Node} {rest : Task} {y : Run σ Unit}
    (hx : Does s False k [.element n] x) (hy : Does s False k [rest] y)
    (hrest : ∀ m : Machine σ, rest.undo m = m) (front back : Bool)
    (hm : m.nesting = k) :
    Expands s False k m (Task.item s n front back rest)
      (item s n front back x >>= fun _ => y) := by
  have q : Alone Quiet (item s n front back (pure ()))
      (item s n front back (pure ())) :=
    (quiet_stepwise s).item n front back quiet_skip
  unfold Task.item
  cases hcontent : n.content with
  | element e =>
    unfold item
    rw [hcontent]
    dsimp only
    split
    · exact expands_tasks hy hm
    · exact expands_tasks (does_append hx hy (plain_one hrest)) hm
  | _ =>
    have same : item s n front back x = item s n front back (pure ()) := by
      unfold item
      rw [hcontent]
    rw [same]
    exact expands_quiet q hm fun m hm => expands_tasks hy hm

mutual

theorem does_element (hi : Opens s k inner) (origin : Origin)
    (trail : List Tree) : ∀ tree,
      Does s False k [.element ⟨origin, tree, trail⟩]
        (element s inner origin trail tree)
  | .node label ts => by
    have q := quiet_stepwise s
    have inside := fun trim =>
      does_items hi ⟨origin, .node label ts, trail⟩ trim trim ts
    have among := does_cases hi ⟨origin, .node label ts, trail⟩ ts
    have replaced := does_replacements hi ⟨origin, .node label ts, trail⟩ ts
    refine does_perform hi ⟨fun trim => ?_, among, replaced⟩
    refine does_of_expands fun m hm => ?_
    refine expands_quiet (q.defineAll _) hm fun m hm => ?_
    exact expands_tasks (inside trim) hm
termination_by structural tree => tree

theorem does_items (hi : Opens s k inner) (parent : Node)
    (trim front : Bool) : ∀ ts,
      Does s False k [.items trim front parent ts]
        (items s inner parent.origin (parent.tree :: parent.trail) trim front
          ts)
  | [] => does_of_expands fun m hm => expands_tasks does_nothing hm
  | tree :: ts => by
    have here := does_element hi parent.origin (parent.tree :: parent.trail)
      tree
    have rest := fun front => does_items hi parent trim front ts
    refine does_of_expands fun m hm => ?_
    show Expands s False k m (Task.nextItem s trim front parent tree ts) _
    unfold Task.nextItem items
    dsimp only
    split
    · exact expands_tasks (rest true) hm
    · split
      · exact expands_tasks does_nothing hm
      · exact expands_item here (rest false) (fun _ => rfl) _ _ hm
termination_by structural ts => ts

theorem does_body (hi : Opens s k inner) (parent : Node) : ∀ tree,
      Does s False k [.contents true (parent.below tree)]
        (body s inner parent.origin (parent.tree :: parent.trail) tree)
  | .node label ts => by
    have q := quiet_stepwise s
    have inside := does_items hi (parent.below (.node label ts)) true true ts
    refine does_of_expands fun m hm => ?_
    refine expands_quiet (q.defineAll _) hm fun m hm => ?_
    exact expands_tasks inside hm
termination_by structural tree => tree

theorem does_cases (hi : Opens s k inner) (n : Node) : ∀ ts,
      Does s False k [.cases n ts]
        (cases s inner n.origin (n.tree :: n.trail) n ts)
  | [] => does_of_expands fun m hm => expands_tasks does_nothing hm
  | tree :: ts => by
    have here := does_body hi n tree
    have rest := does_cases hi n ts
    refine does_of_expands fun m hm => expands_read fun b _ => ?_
    cases b with
    | true => exact expands_inScope _ (expands_tasks here hm)
    | false => exact expands_tasks rest hm
termination_by structural ts => ts

theorem does_replacements (hi : Opens s k inner) (parent : Node) : ∀ ts,
      List.Forall₂ (PairAlike (Replaces s k))
        ((ts.map parent.below).map fun child => (child, pure ()))
        (replacements s inner parent.origin (parent.tree :: parent.trail) ts)
  | [] => .nil
  | tree :: ts =>
    .cons ⟨rfl, does_body hi parent tree⟩ (does_replacements hi parent ts)
termination_by structural ts => ts

end

-- ============================================================== whole runs

theorem does_contents (hi : Opens s k inner) (trim : Bool) (n : Node) :
    Does s False k [.contents trim n] (contents s inner trim n) := by
  have q := quiet_stepwise s
  have inside := does_items hi n trim trim n.tree.children
  refine does_of_expands fun m hm => ?_
  refine expands_quiet (q.defineAll _) hm fun m hm => ?_
  exact expands_tasks inside hm

theorem does_execute (hi : Opens s k inner) (n : Node) :
    Does s False k [.execute n] (execute s inner n) := by
  have element := does_element hi n.origin n.trail n.tree
  refine does_of_expands fun m hm => ?_
  show Expands s False k m (Task.root s n) _
  unfold Task.root execute
  split
  · exact expands_tasks (does_contents hi false n) hm
  · exact expands_tasks element hm

/-- The room that is left and what is open make up the limit. -/
theorem opens_inner (room k : Nat) (h : k + room = nestingLimit) :
    Opens s k (inner? s room) := by
  induction room generalizing k with
  | zero => exact Nat.le_of_eq h.symm
  | succ room ih =>
    have hi := ih (k + 1) (by omega)
    exact ⟨by omega, does_execute hi, does_contents hi true⟩

theorem does_process (s : Settings σ) (n : Node) :
    Does s False 0 [.execute n] (process s n) :=
  does_execute (opens_inner nestingLimit 0 (Nat.zero_add _)) n

end

end Stencil.Template
