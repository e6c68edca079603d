/-
How many inclusions and calls are open.

A step opens an inclusion or a call only for a task that asks for it, and such
a task is put first on the list only where there is room. So however far
processing gets, the machine counts as many inclusions and calls as there are
tasks that close one, and never more than the limit: that is `Counted`, which
a step keeps.
-/
import Stencil.Proofs.Template.Expansion
import Stencil.Proofs.Template.Outcome

namespace Stencil.Template

open Markup (Node Tree)
open Output (Event)

variable {σ : Type} {s : Settings σ}

-- =================================================================== quiet

/-- A run opens nothing, and if it stops, it is for a fault. -/
def Quiet (x : Run σ Unit) : Prop :=
  ∀ m, match x m with
    | .ok _ m' => m'.nesting = m.nesting
    | .error e m' => m'.nesting = m.nesting ∧ ∃ d, e = .failed d

theorem quiet_skip : Quiet (pure () : Run σ Unit) := fun _ => rfl

theorem quiet_fail (d : Diagnostic) : Quiet (fail d : Run σ Unit) :=
  fun _ => ⟨rfl, d, rfl⟩

theorem quiet_seq {x y : Run σ Unit} (hx : Quiet x) (hy : Quiet y) :
    Quiet (x >>= fun _ => y) := by
  intro m
  have first := hx m
  cases h : x m with
  | error e m' =>
    rw [h] at first
    rw [bind_error h]
    exact first
  | ok _ m' =>
    rw [h] at first
    have second := hy m'
    rw [bind_ok h, ← first]
    exact second

theorem quiet_onScope (n : Node) (f : Scopes → Except ScopeError Scopes) :
    Quiet (onScope n f : Run σ Unit) := by
  intro m
  unfold onScope
  cases f m.scopes with
  | ok scopes => rfl
  | error e => exact ⟨rfl, _, rfl⟩

theorem quiet_send (s : Settings σ) (e : Event) : Quiet (send s e) := by
  intro m
  unfold send
  rcases s.sink.send m.output e with ⟨o, _ | error⟩
  · rfl
  · exact ⟨rfl, _, rfl⟩

theorem quiet_sendAll (s : Settings σ) (es : List Event) :
    Quiet (sendAll s es) := by
  induction es with
  | nil => exact quiet_skip
  | cons e es ih => exact quiet_seq (quiet_send s e) ih

theorem quiet_read {α : Type} {r : Reading α} {f : α → Run σ Unit}
    (hf : ∀ env a, r env = .ok a → Quiet (f a)) : Quiet (read r >>= f) := by
  intro m
  cases h : r m.scopes.environment with
  | ok a =>
    rw [bind_ok (read_ok h)]
    exact hf _ a h m
  | error d =>
    rw [bind_error (read_error h)]
    exact ⟨rfl, d, rfl⟩

/-- Single steps open nothing. -/
theorem quiet_stepwise (s : Settings σ) : Stepwise s s (Alone Quiet) where
  skip := quiet_skip
  seq hx hy := quiet_seq hx hy
  binding n _ _ := quiet_onScope n _
  uri := rfl
  fault _ := quiet_fail _
  reading hr hf := quiet_read fun env a ha =>
    let ⟨b, hab⟩ := (hr env).exists_of_ok ha
    hf a b hab
  state hf m := hf m m rfl m
  loading url hf m := hf (Loading.load s.source m.cache url).1
    { m with cache := (Loading.load s.source m.cache url).2 }
  definition n _ := quiet_onScope n _
  characters _ := quiet_send s _
  cdata _ := quiet_sendAll s _
  doctype _ _ _ := quiet_sendAll s _

-- ================================================================== opening

/-- The inclusion or call that a task opens. -/
def Task.opens? : Task → Option Node
  | .fetch n _ => some n
  | .invoke n _ => some n
  | _ => none

/-- A plain task opens and closes nothing. -/
theorem opens_plain {t : Task} (h : t.isPlain = true) : t.opens? = none := by
  cases t with
  | fetch n href => cases h
  | invoke n body => cases h
  | _ => rfl

theorem closed_plain {t : Task} (h : t.isPlain = true) : t.closed? = none := by
  cases t with
  | close n => cases h
  | _ => rfl

/-- Tasks that open nothing. -/
def Calm (ts : List Task) : Prop := ∀ t ∈ ts, t.opens? = none

theorem calm_none : Calm [] := by
  intro t ht
  cases ht

theorem calm_one {t : Task} (h : t.opens? = none) : Calm [t] := by
  intro u hu
  rw [List.mem_singleton.1 hu, h]

section

variable {t : Task} {ts us : List Task}

theorem Calm.tail (h : Calm ts) : Calm ts.tail :=
  fun t ht => h t (List.mem_of_mem_tail ht)

theorem Calm.head (h : Calm ts) (ht : t ∈ ts.head?) : t.opens? = none :=
  h t (List.mem_of_mem_head? ht)

theorem Calm.append (hts : Calm ts) (hus : Calm us) : Calm (ts ++ us) := by
  intro t ht
  rcases List.mem_append.1 ht with ht | ht
  · exact hts t ht
  · exact hus t ht

/-- Behind the first task only calm ones come if they do on both sides. -/
theorem Calm.tail_append (hts : Calm ts.tail) (hus : Calm us) :
    Calm (ts ++ us).tail := by
  cases ts with
  | nil => exact hus.tail
  | cons t ts => exact hts.append hus

/-- What is so of the first task if it opens something is so also when calm
tasks come behind. -/
theorem Calm.head_append {P : Prop} (hus : Calm us)
    (h : ∀ t ∈ ts.head?, t.opens? ≠ none → P) :
    ∀ t ∈ (ts ++ us).head?, t.opens? ≠ none → P := by
  intro t ht hopens
  cases ts with
  | nil => exact absurd (hus.head ht) hopens
  | cons u ts => exact h t ht hopens

end

/-- Tasks in place of one that opens `opened`: they close it again, and the
first may open another only if there is room. `before` were open. -/
structure Fits (before : Nat) (after : Machine σ) (opened : List Node)
    (ts : List Task) : Prop where
  count : after.nesting = before + opened.length
  closing : ts.filterMap Task.closed? = opened
  calm : Calm ts.tail
  room : ∀ t ∈ ts.head?, t.opens? ≠ none → after.nesting < nestingLimit

/-- What an expansion gives fits, and if it fails nothing is opened. -/
def Yields (opened : List Node) (m : Machine σ)
    (tasks : Run σ (List Task)) : Prop :=
  match tasks m with
  | .ok ts m' => Fits m.nesting m' opened ts
  | .error _ m' => m'.nesting = m.nesting

section

variable {m : Machine σ} {opened : List Node} {α : Type}

theorem yields_fail (d : Diagnostic) : Yields opened m (fail d) := rfl

theorem calm_plain {ts : List Task} (h : Plainly ts) : Calm ts :=
  fun t ht => opens_plain (h t ht)

theorem closing_plain {ts : List Task} (h : Plainly ts) :
    ts.filterMap Task.closed? = [] :=
  List.filterMap_eq_nil_iff.2 fun t ht => closed_plain (h t ht)

theorem yields_plain {ts : List Task} (h : Plainly ts) :
    Yields [] m (pure ts) :=
  ⟨rfl, closing_plain h, (calm_plain h).tail,
    fun _ ht hopens => absurd ((calm_plain h).head ht) hopens⟩

theorem yields_read {r : Reading α} {f : α → Run σ (List Task)}
    (h : ∀ a, Yields opened m (f a)) : Yields opened m (read r >>= f) := by
  unfold Yields
  cases hr : r m.scopes.environment with
  | ok a =>
    rw [bind_ok (read_ok hr)]
    exact h a
  | error d =>
    rw [bind_error (read_error hr)]

theorem yields_get {f : Machine σ → Run σ (List Task)}
    (h : Yields opened m (f m)) : Yields opened m (get >>= f) := h

theorem yields_load {f : Except Loading.Error Markup.Document →
    Run σ (List Task)} (url : Url) (h : ∀ d m, Yields opened m (f d)) :
    Yields opened m (load s url >>= f) :=
  h (Loading.load s.source m.cache url).1
    { m with cache := (Loading.load s.source m.cache url).2 }

theorem yields_quiet {x : Run σ Unit} {f : Run σ (List Task)} (hx : Quiet x)
    (h : ∀ m, Yields opened m f) : Yields opened m (x >>= fun _ => f) := by
  have first := hx m
  unfold Yields
  cases hm : x m with
  | error e m' =>
    rw [hm] at first
    rw [bind_error hm]
    exact first.1
  | ok _ m' =>
    rw [hm] at first
    have second := h m'
    unfold Yields at second
    rw [bind_ok hm]
    cases hm' : f m' with
    | error e m'' =>
      rw [hm'] at second
      exact second.trans first
    | ok ts m'' =>
      rw [hm'] at second
      exact ⟨first ▸ second.count, second.closing, second.calm, second.room⟩

/-- What is done behind the tasks neither opens nor closes anything. -/
theorem Fits.append {before : Nat} {ts us : List Task}
    (h : Fits before m opened ts) (hcalm : Calm us)
    (hclosing : us.filterMap Task.closed? = []) :
    Fits before m opened (ts ++ us) where
  count := h.count
  closing := by
    rw [List.filterMap_append, h.closing, hclosing, List.append_nil]
  calm := h.calm.tail_append hcalm
  room := hcalm.head_append h.room

theorem yields_inScope (anchor : Node) {tasks : Run σ (List Task)}
    (h : Yields opened { m with scopes := m.scopes.push anchor } tasks) :
    Yields opened m (tasksInScope anchor tasks) := by
  unfold Yields at h
  unfold Yields tasksInScope
  cases hm : tasks { m with scopes := m.scopes.push anchor } with
  | ok ts m' =>
    rw [hm] at h
    exact h.append (calm_one rfl) rfl
  | error e m' =>
    rw [hm] at h
    exact h

theorem yields_behind {tasks : Run σ (List Task)} {t : Task}
    (h : Yields opened m tasks) (ht : t.isPlain = true) :
    Yields opened m (do let ts ← tasks; pure (ts ++ [t])) := by
  unfold Yields at h ⊢
  cases hm : tasks m with
  | ok ts m' =>
    rw [hm] at h
    rw [bind_ok hm]
    exact h.append (calm_plain (plainly_one ht))
      (closing_plain (plainly_one ht))
  | error e m' =>
    rw [hm] at h
    rw [bind_error hm]
    exact h

/-- An inclusion or a call is opened. -/
theorem yields_entered (n : Node) {t : Task} (hcloses : t.closed? = none)
    (hopens : t.opens? = none) : Yields [n] m (entered n t) where
  count := rfl
  closing := by
    rw [List.filterMap_cons_none hcloses]
    rfl
  calm := calm_one rfl
  room := by
    intro u hu hu'
    cases hu
    exact absurd hopens hu'

/-- A task is asked to open something only where there is room. -/
theorem yields_room {t : Task} (hcloses : t.closed? = none)
    (h : m.nesting < nestingLimit) : Yields [] m (pure [t]) where
  count := rfl
  closing := by rw [List.filterMap_cons_none hcloses, List.filterMap_nil]
  calm := calm_none
  room := fun _ _ _ => h

-- =============================================================== expansions

/-- A plain task opens nothing. -/
theorem yields_expansive (s : Settings σ) :
    Expansive s Quiet fun m tasks => Yields [] m tasks where
  steps := quiet_stepwise s
  sending := quiet_send s
  fault _ := yields_fail
  reading := yields_read
  state := yields_get
  acting := yields_quiet
  inScope anchor h := yields_inScope anchor h
  behind := yields_behind
  plain := yields_plain
  fetching _ _ hroom := yields_room rfl hroom
  invoking _ _ hroom := yields_room rfl hroom

theorem yields_included (n : Node) (href : String) :
    Yields [n] m (Task.included s n href) := by
  refine yields_get ?_
  split
  · exact yields_fail _
  · refine yields_load _ fun d m => ?_
    split
    · exact yields_fail _
    · split
      · exact yields_fail _
      · refine yields_inScope _ (yields_quiet (fun _ => rfl) fun m => ?_)
        exact yields_entered n rfl rfl

/-- What is put in place of a task that closes nothing. -/
theorem yields_expand {t : Task} (h : t.closed? = none) :
    Yields t.opens?.toList m (t.expand s) := by
  cases t with
  | fetch n href => exact yields_included n href
  | invoke n body =>
    have params := (quiet_stepwise s).bindParams n n.children
    exact yields_quiet params fun m => yields_entered n rfl rfl
  | leave => exact yields_quiet (fun _ => rfl) fun m => yields_plain plainly_none
  | close n => cases h
  | _ => exact (yields_expansive s).expand rfl

end

-- ================================================================== counting

/-- As many inclusions and calls are counted as are to be closed, not more
than the limit, and there is room for the one that is next to be opened. -/
structure Counted (c : Progress σ) : Prop where
  nesting : c.machine.nesting = c.opened.length
  bound : c.machine.nesting ≤ nestingLimit
  calm : Calm c.work.tail
  room : c.stop = none → ∀ t ∈ c.work.head?, t.opens? ≠ none →
    c.machine.nesting < nestingLimit

theorem counted_beginning (n : Node) {m : Machine σ} (h : m.nesting = 0) :
    Counted (.beginning n m) where
  nesting := h
  bound := by
    show m.nesting ≤ nestingLimit
    rw [h]
    exact Nat.zero_le _
  calm := calm_none
  room := by
    intro _ t ht hopens
    cases ht
    exact absurd rfl hopens

section

variable {t : Task} {rest : List Task} {m m' : Machine σ}

theorem Counted.behind {stop : Option Stop} (h : Counted ⟨t :: rest, stop, m⟩)
    (ht : t.closed? = none) :
    m.nesting = (rest.filterMap Task.closed?).length := by
  have whole := h.nesting
  unfold Progress.opened at whole
  rwa [List.filterMap_cons_none ht] at whole

/-- A task that closes something is done by taking it off the count. -/
theorem Counted.closed {stop : Option Stop} {n : Node}
    (h : Counted ⟨t :: rest, stop, m⟩) (ht : t.closed? = some n)
    (hm : m'.nesting = m.nesting - 1) : Counted ⟨rest, stop, m'⟩ := by
  have count : m.nesting = (rest.filterMap Task.closed?).length + 1 := by
    have whole := h.nesting
    unfold Progress.opened at whole
    rwa [List.filterMap_cons_some ht] at whole
  have bound : m.nesting ≤ nestingLimit := h.bound
  have calm : Calm rest := h.calm
  refine ⟨?_, ?_, calm.tail, ?_⟩
  · show m'.nesting = (rest.filterMap Task.closed?).length
    omega
  · show m'.nesting ≤ nestingLimit
    omega
  · intro _ u hu hopens
    exact absurd (calm.head hu) hopens

/-- A task that closes nothing may also just be taken off. -/
theorem Counted.dropped {stop stop' : Option Stop}
    (h : Counted ⟨t :: rest, stop, m⟩) (ht : t.closed? = none)
    (hm : m'.nesting = m.nesting) : Counted ⟨rest, stop', m'⟩ := by
  have calm : Calm rest := h.calm
  refine ⟨hm.trans (h.behind ht), hm ▸ h.bound, calm.tail, ?_⟩
  intro _ u hu hopens
  exact absurd (calm.head hu) hopens

/-- What fits takes the place of a task. -/
theorem Counted.replaced {ts : List Task} (h : Counted ⟨t :: rest, none, m⟩)
    (ht : t.closed? = none) (hfits : Fits m.nesting m' t.opens?.toList ts) :
    Counted ⟨ts ++ rest, none, m'⟩ := by
  have calm : Calm rest := h.calm
  have bound : m.nesting ≤ nestingLimit := h.bound
  refine ⟨?_, ?_, hfits.calm.tail_append calm, ?_⟩
  · show m'.nesting = ((ts ++ rest).filterMap Task.closed?).length
    rw [List.filterMap_append, hfits.closing, List.length_append,
      hfits.count, h.behind ht, Nat.add_comm]
  · show m'.nesting ≤ nestingLimit
    rw [hfits.count]
    cases hopens : t.opens? with
    | none => exact bound
    | some n =>
      have room := h.room rfl t rfl (by rw [hopens]; nofun)
      exact room
  · intro _
    exact calm.head_append hfits.room

theorem undo_nesting (ht : t.closed? = none) :
    (t.undo m).nesting = m.nesting := by
  cases t with
  | close n => cases ht
  | _ => rfl

end

theorem counted_step {c : Progress σ} (h : Counted c) :
    Counted (step s c) := by
  obtain ⟨work, stop, m⟩ := c
  cases work with
  | nil => exact h
  | cons t rest =>
    cases hclosed : t.closed? with
    -- `close` counts down whether processing has stopped or not
    | some n =>
      obtain rfl : t = .close n := by
        cases t with
        | close n' =>
          cases hclosed
          rfl
        | _ => cases hclosed
      cases stop with
      | none => exact h.closed hclosed rfl
      | some e => exact h.closed hclosed rfl
    | none =>
      cases stop with
      -- behind a stop anything else is dropped, which changes no count
      | some e => exact h.dropped hclosed (undo_nesting hclosed)
      | none =>
        have yields := yields_expand (s := s) (m := m) hclosed
        unfold Yields at yields
        cases hexpand : t.expand s m with
        | ok ts m' =>
          rw [hexpand] at yields
          rw [step_ok hexpand]
          exact h.replaced hclosed yields
        | error e m' =>
          rw [hexpand] at yields
          rw [step_error hexpand]
          exact h.dropped hclosed yields

/-- However far processing gets, the inclusions and calls are counted. -/
theorem counted_progress (s : Settings σ) (n : Node) {m : Machine σ}
    (h : m.nesting = 0) (k : Nat) : Counted (progress s n m k) := by
  induction k with
  | zero => exact counted_beginning n h
  | succ k ih =>
    unfold progress at ih ⊢
    rw [Function.iterate_succ_apply']
    exact counted_step ih

end Stencil.Template
