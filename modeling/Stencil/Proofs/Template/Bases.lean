/-
The addresses that references are relative to.

Along a run the inclusions that are open make a stack of addresses, on which a
call lies as none (`places`). It is kept by what is opened and closed alone,
and no scope is looked at. Scopes have their bases of their own accord: one
that is opened takes the base over, an inclusion overwrites that of its own
scope. The two agree wherever a task is come to. For the tasks behind it this
has to be said of the scopes that are left before they are come to, so what a
step keeps is `Based`: going through the tasks, leaving scopes and closing what
is open where they do, the innermost base is always that of the places.
-/
import Stencil.Proofs.Template.Inversion
import Stencil.Proofs.Template.Termination

namespace Stencil.Template

open Markup (Node Tree)

variable {σ : Type} {s : Settings σ}

-- ================================================================== places

/-- The address inside what is open, innermost first, and outside of which
there is a base or none. -/
def innermost (base : Option Url) (places : List (Option Url)) : Option Url :=
  (places.findSome? id).or base

/-- What is open behind the next step: an inclusion has the address that its
reference means among those that were open before, a call has none. What fails
is not opened. -/
def Progress.moved (s : Settings σ) (base : Option Url) (c : Progress σ)
    (places : List (Option Url)) : List (Option Url) :=
  match c.work, c.stop, (step s c).stop with
  | .fetch _ href :: _, none, none =>
    (Loading.resolveHref (innermost base places) href).toOption :: places
  | .invoke _ _ :: _, none, none => none :: places
  | .close _ :: _, _, _ => places.tail
  | _, _, _ => places

/-- The inclusions and calls that are open after so many steps, innermost
first. -/
def places (s : Settings σ) (n : Node) (m : Machine σ) :
    Nat → List (Option Url)
  | 0 => []
  | k + 1 => (progress s n m k).moved s m.scopes.base (places s n m k)

-- =================================================================== bases

/-- The bases of the scopes, innermost first. -/
def Scopes.bases (s : Scopes) : List (Option Url) := s.all.map (·.base)

/-- The bases when the innermost scope is left, but not the outermost. -/
def outside : List (Option Url) → List (Option Url)
  | _ :: b :: bs => b :: bs
  | bs => bs

theorem bases_pop (scopes : Scopes) :
    scopes.pop.bases = outside scopes.bases := by
  obtain ⟨current, outer⟩ := scopes
  cases outer with
  | nil => rfl
  | cons t ts => rfl

/-- Who keeps the frame keeps all bases. -/
theorem Framed.bases {m m' : Machine σ} (h : Framed m m') :
    m'.scopes.bases = m.scopes.bases := by
  show m'.scopes.current.base :: m'.scopes.outer.map (·.base)
    = m.scopes.current.base :: m.scopes.outer.map (·.base)
  rw [h.current.base, h.outer]

theorem Framed.base {m m' : Machine σ} (h : Framed m m') :
    m'.scopes.base = m.scopes.base := h.current.base

/-- The tasks are come to with the base that the places say. -/
def Based (base : Option Url) :
    List Task → List (Option Url) → List (Option Url) → Prop
  | [], _, _ => True
  | .leave :: ts, bases, places => Based base ts (outside bases) places
  | .close _ :: ts, bases, places => Based base ts bases places.tail
  | _ :: ts, bases, places =>
    bases.head? = some (innermost base places) ∧ Based base ts bases places

section

variable {base : Option Url} {ts rest : List Task} {t : Task}
  {bases places : List (Option Url)} {m : Machine σ}

theorem based_plain (ht : t.isPlain = true) :
    Based base (t :: rest) bases places
      ↔ bases.head? = some (innermost base places)
        ∧ Based base rest bases places := by
  cases t with
  | leave => cases ht
  | close n => cases ht
  | _ => rfl

theorem based_plainly (hts : Plainly ts)
    (hhead : bases.head? = some (innermost base places))
    (hrest : Based base rest bases places) :
    Based base (ts ++ rest) bases places := by
  induction ts with
  | nil => exact hrest
  | cons t ts ih =>
    have ht := hts t List.mem_cons_self
    refine (based_plain ht).2 ⟨hhead, ih fun u hu => ?_⟩
    exact hts u (List.mem_cons_of_mem t hu)

-- ============================================================== expansions

/-- An inclusion is opened by a directive that is one, and so is a call. -/
def Task.Rightful (s : Settings σ) : Task → Prop
  | .fetch n _ => Directive.ofNode? s.uri n = some .inclusion
  | .invoke n _ => Directive.ofNode? s.uri n = some .call
  | _ => True

theorem rightful_plain (ht : t.isPlain = true) : t.Rightful s := by
  cases t with
  | fetch n href => cases ht
  | invoke n body => cases ht
  | _ => trivial

/-- What an expansion puts in place of a task that has its base opens nothing
but what it may, and has its bases if what is behind the task has. -/
def Sites (s : Settings σ) (base : Option Url) (m : Machine σ)
    (tasks : Run σ (List Task)) : Prop :=
  ∀ ts m', tasks m = .ok ts m' →
    (∀ t ∈ ts, t.Rightful s)
    ∧ ∀ rest places, m.scopes.base = innermost base places →
      Based base rest m.scopes.bases places →
      Based base (ts ++ rest) m'.scopes.bases places

theorem sites_fail (d : Diagnostic) : Sites s base m (fail d) := nofun

theorem sites_tasks (hright : ∀ t ∈ ts, t.Rightful s)
    (h : ∀ rest places, m.scopes.base = innermost base places →
      Based base rest m.scopes.bases places →
      Based base (ts ++ rest) m.scopes.bases places) :
    Sites s base m (pure ts) := by
  intro ts' m' hts
  cases hts
  exact ⟨hright, h⟩

theorem sites_plain (hts : Plainly ts) : Sites s base m (pure ts) :=
  sites_tasks (fun t ht => rightful_plain (hts t ht))
    fun _ _ hbase => based_plainly hts (congrArg some hbase)

theorem sites_read {α : Type} {r : Reading α} {f : α → Run σ (List Task)}
    (h : ∀ a, Sites s base m (f a)) : Sites s base m (read r >>= f) := by
  intro ts m' hts
  obtain ⟨a, m₁, hr, hf⟩ := exists_of_bind_ok hts
  unfold read at hr
  split at hr
  · cases hr
    exact h a ts m' hf
  · cases hr

theorem sites_framed {x : Run σ Unit} {f : Run σ (List Task)}
    (hx : Within Framed x) (h : ∀ m, Sites s base m f) :
    Sites s base m (x >>= fun _ => f) := by
  intro ts m' hts
  obtain ⟨_, m₁, hm₁, hf⟩ := exists_of_bind_ok hts
  have framed := hx m
  rw [after_ok hm₁] at framed
  have second := h m₁ ts m' hf
  rw [framed.base, framed.bases] at second
  exact second

/-- The scope that is opened has the same base, and is left again. -/
theorem sites_inScope (anchor : Node) {tasks : Run σ (List Task)}
    (h : Sites s base { m with scopes := m.scopes.push anchor } tasks) :
    Sites s base m (tasksInScope anchor tasks) := by
  intro ts m' hts
  unfold tasksInScope at hts
  cases hm : tasks { m with scopes := m.scopes.push anchor } with
  | error e m₁ =>
    rw [hm] at hts
    cases hts
  | ok us m₁ =>
    rw [hm] at hts
    cases hts
    obtain ⟨hright, hbased⟩ := h us m' hm
    refine ⟨?_, fun rest places hbase hrest => ?_⟩
    · intro t ht
      rcases List.mem_append.1 ht with ht | ht
      · exact hright t ht
      · cases List.mem_singleton.1 ht
        trivial
    · rw [List.append_assoc]
      exact hbased (.leave :: rest) places hbase hrest

theorem sites_behind {tasks : Run σ (List Task)} (h : Sites s base m tasks)
    (ht : t.isPlain = true) :
    Sites s base m (do let ts ← tasks; pure (ts ++ [t])) := by
  intro ts m' hts
  obtain ⟨us, m₁, hm, hts⟩ := exists_of_bind_ok hts
  cases hts
  obtain ⟨hright, hbased⟩ := h us m' hm
  refine ⟨?_, fun rest places hbase hrest => ?_⟩
  · intro u hu
    rcases List.mem_append.1 hu with hu | hu
    · exact hright u hu
    · rw [List.mem_singleton.1 hu]
      exact rightful_plain ht
  · rw [List.append_assoc]
    exact hbased (t :: rest) places hbase
      ((based_plain ht).2 ⟨congrArg some hbase, hrest⟩)

/-- A plain task leaves tasks that have their bases. -/
theorem sites_expansive (s : Settings σ) (base : Option Url) :
    Expansive s (fun x => Within Framed x) (Sites s base) where
  steps := (framed_congruence s).toStepwise
  sending e := (untouched_send s e).framed
  fault _ := sites_fail
  reading := sites_read
  state h := h
  acting := sites_framed
  inScope anchor h := sites_inScope anchor h
  behind := sites_behind
  plain := sites_plain
  fetching href hn _ := by
    refine sites_tasks (fun t ht => ?_) fun rest places hbase hrest => ?_
    · cases List.mem_singleton.1 ht
      exact hn
    · exact ⟨congrArg some hbase, hrest⟩
  invoking body hn _ := by
    refine sites_tasks (fun t ht => ?_) fun rest places hbase hrest => ?_
    · cases List.mem_singleton.1 ht
      exact hn
    · exact ⟨congrArg some hbase, hrest⟩

/-- A call that does not fail is done with the bases there are. -/
theorem invoked_ok {n body : Node} {m' : Machine σ}
    (h : (Task.invoke n body).expand s m = .ok ts m') :
    ts = [.contents true body, .close n]
      ∧ m'.scopes.bases = m.scopes.bases := by
  obtain ⟨_, m₁, hparams, h⟩ := exists_of_bind_ok h
  have framed := (framed_congruence s).bindParams n n.children m
  rw [after_ok hparams] at framed
  cases h
  exact ⟨rfl, framed.bases⟩

-- =================================================================== steps

variable {stop : Option Stop} {e : Stop} {m' : Machine σ}

/-- Nothing is opened when processing has stopped. -/
theorem moved_stopped (hcloses : t.closed? = none) :
    Progress.moved s base ⟨t :: rest, some e, m⟩ places = places := by
  cases t with
  | close n => cases hcloses
  | _ => rfl

/-- Nothing is opened by what fails. -/
theorem moved_failed (hcloses : t.closed? = none)
    (hfails : t.expand s m = .error e m') :
    Progress.moved s base ⟨t :: rest, none, m⟩ places = places := by
  unfold Progress.moved
  rw [step_error hfails]
  cases t with
  | close n => cases hcloses
  | _ => rfl

end

/-- The tasks have their bases, and the places are those of what is open: an
address of an inclusion, none of a call. -/
structure Sited (s : Settings σ) (base : Option Url) (c : Progress σ)
    (places : List (Option Url)) : Prop where
  based : c.stop = none → Based base c.work c.machine.scopes.bases places
  rightful : ∀ t ∈ c.work, t.Rightful s
  aligned : List.Forall₂ (fun n place => place.isSome = true
    ↔ Directive.ofNode? s.uri n = some .inclusion) c.opened places

theorem sited_beginning (s : Settings σ) (n : Node) (m : Machine σ) :
    Sited s m.scopes.base (.beginning n m) [] where
  based _ := ⟨rfl, trivial⟩
  rightful t ht := by
    cases List.mem_singleton.1 ht
    trivial
  aligned := .nil

section

variable {base : Option Url} {places : List (Option Url)} {t : Task}
  {rest ts : List Task} {m m' : Machine σ} {stop : Option Stop} {e : Stop}

/-- Behind a step that stops, or with which nothing goes on, there is just a
task less. -/
theorem Sited.dropped (h : Sited s base ⟨t :: rest, stop, m⟩ places)
    (ht : t.closed? = none) : Sited s base ⟨rest, some e, m'⟩ places where
  based := nofun
  rightful u hu := h.rightful u (List.mem_cons_of_mem t hu)
  aligned := by
    have aligned := h.aligned
    unfold Progress.opened at aligned
    rw [List.filterMap_cons_none ht] at aligned
    exact aligned

/-- What is closed is taken off the places. -/
theorem Sited.closed {n : Node} {stop' : Option Stop}
    (h : Sited s base ⟨.close n :: rest, stop, m⟩ places)
    (hstop : stop' = none → stop = none) (hm : m'.scopes = m.scopes) :
    Sited s base ⟨rest, stop', m'⟩ places.tail where
  based hnone := by
    have based := h.based (hstop hnone)
    show Based base rest m'.scopes.bases places.tail
    rw [hm]
    exact based
  rightful u hu := h.rightful u (List.mem_cons_of_mem _ hu)
  aligned := by
    have aligned : List.Forall₂ _ (n :: rest.filterMap Task.closed?) places :=
      h.aligned
    cases aligned with
    | cons _ behind => exact behind

/-- What was opened is put on the places. -/
theorem Sited.opened {place : Option Url} {t₁ : Task}
    (h : Sited s base ⟨t :: rest, none, m⟩ places) (ht : t.closed? = none)
    (n : Node) (behind : List Task) (ht₁ : t₁.isPlain = true)
    (hbehind : ∀ u ∈ behind, u = .leave)
    (hbases : m'.scopes.bases.head? = some (innermost base (place :: places)))
    (hrest : Based base (behind ++ rest) m'.scopes.bases places)
    (hplace : place.isSome = true
      ↔ Directive.ofNode? s.uri n = some .inclusion) :
    Sited s base ⟨t₁ :: .close n :: (behind ++ rest), none, m'⟩
      (place :: places) where
  based _ := (based_plain ht₁).2 ⟨hbases, hrest⟩
  rightful := by
    intro u hu
    rcases List.mem_cons.1 hu with rfl | hu
    · exact rightful_plain ht₁
    rcases List.mem_cons.1 hu with rfl | hu
    · trivial
    rcases List.mem_append.1 hu with hu | hu
    · rw [hbehind u hu]
      trivial
    · exact h.rightful u (List.mem_cons_of_mem t hu)
  aligned := by
    have aligned := h.aligned
    unfold Progress.opened at aligned ⊢
    -- what is behind only leaves scopes, so it closes nothing
    have hnone : behind.filterMap Task.closed? = [] := by
      refine List.filterMap_eq_nil_iff.2 fun u hu => ?_
      rw [hbehind u hu]
      rfl
    rw [List.filterMap_cons_none ht] at aligned
    have hclose : Task.closed? (.close n) = some n := rfl
    rw [List.filterMap_cons_none (closed_plain ht₁),
      List.filterMap_cons_some hclose, List.filterMap_append, hnone,
      List.nil_append]
    exact .cons hplace aligned

/-- What is put in place of a plain task closes nothing. -/
theorem sited_plain (h : Sited s base ⟨t :: rest, none, m⟩ places)
    (ht : t.isPlain = true) (hexpand : t.expand s m = .ok ts m') :
    Sited s base ⟨ts ++ rest, none, m'⟩ places := by
  obtain ⟨hhead, hrest⟩ := (based_plain ht).1 (h.based rfl)
  obtain ⟨hright, hbased⟩ :=
    (sites_expansive s base).expand ht ts m' hexpand
  have fits := yields_expand (s := s) (m := m) (closed_plain ht)
  unfold Yields at fits
  rw [hexpand, opens_plain ht] at fits
  refine ⟨fun _ => hbased rest places (Option.some.inj hhead) hrest, ?_, ?_⟩
  · intro u hu
    rcases List.mem_append.1 hu with hu | hu
    · exact hright u hu
    · exact h.rightful u (List.mem_cons_of_mem t hu)
  · have aligned := h.aligned
    unfold Progress.opened at aligned ⊢
    rw [List.filterMap_cons_none (closed_plain ht)] at aligned
    rw [List.filterMap_append, fits.closing]
    exact aligned

/-- An inclusion goes on at the base of the document that it names. -/
theorem sited_fetch {n : Node} {href : String}
    (h : Sited s base ⟨.fetch n href :: rest, none, m⟩ places)
    (hexpand : (Task.fetch n href).expand s m = .ok ts m') :
    Sited s base ⟨ts ++ rest, none, m'⟩
      (Progress.moved s base ⟨.fetch n href :: rest, none, m⟩ places) := by
  obtain ⟨hhead, hrest⟩ := h.based rfl
  have hbase : m.scopes.base = innermost base places := Option.some.inj hhead
  have hn : Directive.ofNode? s.uri n = some .inclusion :=
    h.rightful _ List.mem_cons_self
  obtain ⟨url, _, root, hurl, -, -, rfl, hscopes, -⟩ := included_ok hexpand
  have hbases : m'.scopes.bases = some url :: m.scopes.bases :=
    congrArg Scopes.bases hscopes
  rw [hbase] at hurl
  have hmoved : Progress.moved s base ⟨.fetch n href :: rest, none, m⟩ places
      = some url :: places := by
    unfold Progress.moved
    rw [step_ok hexpand]
    show (Loading.resolveHref (innermost base places) href).toOption :: places
      = some url :: places
    rw [hurl]
    rfl
  rw [hmoved]
  refine h.opened rfl n [.leave] rfl ?_ ?_ ?_ ?_
  · intro u hu
    exact List.mem_singleton.1 hu
  · rw [hbases]
    rfl
  · rw [hbases]
    exact hrest
  · exact iff_of_true rfl hn

/-- A call goes on at the base that it is met at. -/
theorem sited_invoke {n body : Node}
    (h : Sited s base ⟨.invoke n body :: rest, none, m⟩ places)
    (hexpand : (Task.invoke n body).expand s m = .ok ts m') :
    Sited s base ⟨ts ++ rest, none, m'⟩
      (Progress.moved s base ⟨.invoke n body :: rest, none, m⟩ places) := by
  obtain ⟨hhead, hrest⟩ := h.based rfl
  have hn : Directive.ofNode? s.uri n = some .call :=
    h.rightful _ List.mem_cons_self
  obtain ⟨rfl, hbases⟩ := invoked_ok hexpand
  have hmoved : Progress.moved s base ⟨.invoke n body :: rest, none, m⟩ places
      = none :: places := by
    unfold Progress.moved
    rw [step_ok hexpand]
  rw [hmoved]
  refine h.opened rfl n [] rfl nofun ?_ ?_ ?_
  · rw [hbases]
    exact hhead
  · rw [hbases]
    exact hrest
  · rw [hn]
    exact iff_of_false nofun nofun

/-- Only inclusions and calls move to another base, and they move back where
they are closed. -/
theorem sited_expanded (h : Sited s base ⟨t :: rest, none, m⟩ places)
    (hexpand : t.expand s m = .ok ts m') :
    Sited s base ⟨ts ++ rest, none, m'⟩
      (Progress.moved s base ⟨t :: rest, none, m⟩ places) := by
  have based := h.based rfl
  cases t with
  | leave =>
    cases hexpand
    exact {
      based := fun _ => by
        show Based base rest m.scopes.pop.bases places
        rw [bases_pop]
        exact based
      rightful := fun u hu => h.rightful u (List.mem_cons_of_mem _ hu)
      aligned := h.aligned }
  | close n =>
    cases hexpand
    exact h.closed id rfl
  | fetch n href => exact sited_fetch h hexpand
  | invoke n body => exact sited_invoke h hexpand
  | _ => exact sited_plain h rfl hexpand

theorem sited_step {c : Progress σ} (h : Sited s base c places) :
    Sited s base (step s c) (c.moved s base places) := by
  obtain ⟨work, stop, m⟩ := c
  cases work with
  | nil => exact h
  | cons t rest =>
    cases stop with
    | none =>
      cases hexpand : t.expand s m with
      | ok ts m' =>
        rw [step_ok hexpand]
        exact sited_expanded h hexpand
      -- a failing task is dropped, and `close` never fails
      | error e m' =>
        have ht : t.closed? = none := by
          cases t with
          | close n => cases hexpand
          | _ => rfl
        rw [step_error hexpand, moved_failed ht hexpand]
        exact h.dropped ht
    -- behind a stop everything is dropped but `close`
    | some e =>
      cases ht : t.closed? with
      | none =>
        rw [moved_stopped ht]
        exact h.dropped ht
      | some n =>
        obtain rfl : t = .close n := by
          cases t with
          | close n' =>
            cases ht
            rfl
          | _ => cases ht
        exact h.closed nofun rfl

end

/-- However far processing gets, the tasks have their bases. -/
theorem sited_progress (s : Settings σ) (n : Node) (m : Machine σ) (k : Nat) :
    Sited s m.scopes.base (progress s n m k) (places s n m k) := by
  induction k with
  | zero => exact sited_beginning s n m
  | succ k ih =>
    rw [places, progress, Function.iterate_succ_apply']
    exact sited_step ih

/-- However far processing gets, a reference is resolved against the address of
the innermost inclusion that is open, and if there is none, against the base
that processing began with. The places are those of what is open. An inclusion
leaves its caller the scopes that there were, however it ends, and the steps
are those of the interpreter. -/
theorem resolved_against_innermost (s : Settings σ) (n : Node) (m : Machine σ)
    (h : m.nesting = 0) :
    (∀ k n' href rest, (progress s n m k).work = .fetch n' href :: rest →
      (progress s n m k).stop = none →
      (progress s n m k).machine.scopes.base
        = innermost m.scopes.base (places s n m k))
    ∧ (∀ k, List.Forall₂ (fun n' place => place.isSome = true
        ↔ Directive.ofNode? s.uri n' = some .inclusion)
      (progress s n m k).opened (places s n m k))
    ∧ (∀ room n' m', (after (inclusion s (inner? s room) n') m').scopes
        = m'.scopes)
    ∧ ∀ p, (∃ k, (progress s n m k).work = []
        ∧ (progress s n m k).stop ≠ some .unfinished
        ∧ process { s with passes := p } n m = (progress s n m k).result)
      ∨ (∃ m', process { s with passes := p } n m = .error .unfinished m')
        ∧ ∃ k, (progress s n m k).Floating s := by
  refine ⟨fun k n' href rest hwork hstop => ?_,
    fun k => (sited_progress s n m k).aligned, fun room n' m' => ?_,
    process_simulated s n h⟩
  · have based := (sited_progress s n m k).based hstop
    rw [hwork] at based
    exact Option.some.inj based.1
  · have hi := (framed_congruence s).inner room
    exact (untouched_inclusion hi n' m').scopes

/-- A macro that includes, an inclusion, and a call of the macro. -/
def series : Node :=
  let included (href : String) : Tree :=
    directive 3 "include" [⟨.ofText "href", none, href⟩] []
  ⟨.given 0, directive 1 "template" []
    [directive 2 "macro" [⟨.ofText "name", none, "m"⟩] [included "two"],
      included "b/one", caller], []⟩

/-- The document that is included calls the macro, and there is one for it to
include. -/
def shelved : Machine Unit :=
  let document (ts : List Tree) : Tree :=
    .node ⟨0, ⟨1, 1⟩, .document⟩ [directive 1 "template" [] ts]
  let base : Url := ⟨"x", none, .segments ["a", "main"], none, none⟩
  let cache : Loading.Cache :=
    ⟨0, [("x:/a/b/one", document [caller]), ("x:/a/b/two", document [])]⟩
  ⟨.single (.fresh series (some base)), 0, cache, ()⟩

/-- The macro includes from where it is called. -/
theorem resolved_within_series :
    let c := progress vacant series shelved
    let address (names : List String) : Url :=
      ⟨"x", none, .segments names, none, none⟩
    shelved.nesting = 0
    ∧ (∃ n rest, (c 14).work = .fetch n "two" :: rest ∧ (c 14).stop = none
      ∧ (c 14).machine.scopes.base = some (address ["a", "b", "one"]))
    ∧ (∃ n rest, (c 32).work = .fetch n "two" :: rest ∧ (c 32).stop = none
      ∧ (c 32).machine.scopes.base = some (address ["a", "main"]))
    ∧ ∀ m : Machine Unit, (after (inclusion vacant (inner? vacant 1) series)
        m).scopes = m.scopes := by
  intro c address
  obtain ⟨bases, -, kept, -⟩ :=
    resolved_against_innermost vacant series shelved rfl
  have first : ∃ n rest, (c 14).work = .fetch n "two" :: rest :=
    ⟨_, _, by with_unfolding_all rfl⟩
  have second : ∃ n rest, (c 32).work = .fetch n "two" :: rest :=
    ⟨_, _, by with_unfolding_all rfl⟩
  have running : (c 14).stop = none ∧ (c 32).stop = none :=
    ⟨by with_unfolding_all rfl, by with_unfolding_all rfl⟩
  have within : innermost shelved.scopes.base (places vacant series shelved 14)
      = some (address ["a", "b", "one"]) := by decide +kernel
  have without : innermost shelved.scopes.base (places vacant series shelved 32)
      = some (address ["a", "main"]) := by decide +kernel
  obtain ⟨n₁, rest₁, hwork₁⟩ := first
  obtain ⟨n₂, rest₂, hwork₂⟩ := second
  exact ⟨rfl,
    ⟨n₁, rest₁, hwork₁, running.1,
      (bases 14 n₁ "two" rest₁ hwork₁ running.1).trans within⟩,
    ⟨n₂, rest₂, hwork₂, running.2,
      (bases 32 n₂ "two" rest₂ hwork₂ running.2).trans without⟩,
    fun m => kept 1 series m⟩

end Stencil.Template
