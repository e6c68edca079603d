/-
Runs side by side, with other records behind them.

Two runs may be at nodes that are alike, in scopes of anchors at which qualifiers
stand for the same, and with different events sent before. Then they send the
same from there on, and both go well or both stop (`sendAlike_congruence`): what
was sent is not looked at, and of an anchor nothing but what qualifiers stand
for.
-/
import Stencil.Proofs.Output.Delivery
import Stencil.Proofs.Template.Interchange

namespace Stencil.Template

open Stencil.Expr (Value)
open Markup (Document Node)
open Output (Event Sink)

variable {N : Node → Node → Prop}

-- ================================================================== scopes

/-- The same bindings but for macros, which are alike, at anchors where
qualifiers stand for the same. -/
structure Scope.Beside (N : Node → Node → Prop) (scope scope' : Scope) :
    Prop where
  anchor (q : Option String) :
    scope.anchor.resolve? q = scope'.anchor.resolve? q
  names : scope.names = scope'.names
  macros :
    List.Forall₂ (fun d d' => d.1 = d'.1 ∧ Wholly N d.2 d'.2)
      scope.macros scope'.macros
  libraries : scope.libraries = scope'.libraries
  base : scope.base = scope'.base

structure Scopes.Beside (N : Node → Node → Prop) (scopes scopes' : Scopes) :
    Prop where
  current : scopes.current.Beside N scopes'.current
  outer : List.Forall₂ (Scope.Beside N) scopes.outer scopes'.outer

namespace Scopes.Beside

variable {scopes scopes' : Scopes}

theorem all (h : scopes.Beside N scopes') :
    List.Forall₂ (Scope.Beside N) scopes.all scopes'.all :=
  .cons h.current h.outer

theorem environment (h : scopes.Beside N scopes') :
    scopes.environment = scopes'.environment :=
  Scopes.environment_congr h.all h.current.anchor (fun _ _ hs => hs.names)
    fun _ _ hs => hs.libraries

theorem seen (h : scopes.Beside N scopes') :
    SeenAlike N (fun _ => True) scopes scopes' :=
  ⟨h.current.base, fun _ _ => trivial, fun name =>
    rel_findSome? h.all fun _ _ hs => rel_lookup hs.macros name⟩

theorem push [Likeness N] (h : scopes.Beside N scopes') {n n' : Node}
    (hn : N n n') : (scopes.push n).Beside N (scopes'.push n') :=
  ⟨⟨Likeness.resolve? hn, rfl, .nil, rfl, h.current.base⟩, h.all⟩

theorem pop (h : scopes.Beside N scopes') :
    scopes.pop.Beside N scopes'.pop := by
  obtain ⟨current, outer⟩ := scopes
  obtain ⟨current', outer'⟩ := scopes'
  cases h.outer with
  | nil => exact h
  | cons hs hrest => exact ⟨hs, hrest⟩

theorem setBase (h : scopes.Beside N scopes') (base : Option Url) :
    (scopes.setBase base).Beside N (scopes'.setBase base) :=
  ⟨⟨h.current.anchor, h.current.names, h.current.macros, h.current.libraries,
    rfl⟩, h.outer⟩

theorem onCurrent (h : scopes.Beside N scopes')
    {f f' : Scope → Except ScopeError Scope}
    (hf : ∀ scope scope', scope.Beside N scope' →
      Changed (Scope.Beside N) (f scope) (f' scope')) :
    Changed (Scopes.Beside N) (scopes.onCurrent f) (scopes'.onCurrent f') :=
  (hf _ _ h.current).onCurrent fun _ _ hscope => ⟨hscope, h.outer⟩

end Scopes.Beside

namespace Scope.Beside

variable {scope scope' : Scope}

theorem bind (h : scope.Beside N scope') (name : String) (b : Binding) :
    Changed (Scope.Beside N) (scope.bind name b) (scope'.bind name b) := by
  unfold Scope.bind Scope.isConstant
  rw [h.names]
  split
  · exact .error _
  · exact .ok ⟨h.anchor, rfl, h.macros, h.libraries, h.base⟩

theorem define (h : scope.Beside N scope') (name : String) {n n' : Node}
    (hn : Wholly N n n') :
    Changed (Scope.Beside N) (scope.define name n) (scope'.define name n') :=
  Changed.define h.macros name hn fun _ _ hmacros =>
    ⟨h.anchor, h.names, hmacros, h.libraries, h.base⟩

end Scope.Beside

-- ================================================================ machines

/-- Machines that differ in what they are anchored in, and in what was sent. -/
structure Machine.Beside (N : Node → Node → Prop)
    (m m' : Machine (List Event)) : Prop where
  scopes : m.scopes.Beside N m'.scopes
  nesting : m.nesting = m'.nesting
  cache : m.cache = m'.cache

/-- Both runs go well and send the same, or both stop. -/
inductive SentAlike (N : Node → Node → Prop) (before before' : List Event) :
    EStateM.Result Stop (Machine (List Event)) Unit →
    EStateM.Result Stop (Machine (List Event)) Unit → Prop
  | ok {m m' : Machine (List Event)} (es : List Event) (h : m.Beside N m')
    (sent : m.output = before ++ es) (sent' : m'.output = before' ++ es) :
    SentAlike N before before' (.ok () m) (.ok () m')
  | stopped {e e' : Stop} {m m' : Machine (List Event)} :
    SentAlike N before before' (.error e m) (.error e' m')

/-- From machines side by side on, two runs send the same. -/
def SendAlike (N : Node → Node → Prop) (x x' : Run (List Event) Unit) : Prop :=
  ∀ m m', m.Beside N m' → SentAlike N m.output m'.output (x m) (x' m')

variable {x x' y y' : Run (List Event) Unit}

/-- A change of machines that sends nothing. -/
theorem sentAlike_idle {m m' n n' : Machine (List Event)} (h : n.Beside N n')
    (hn : n.output = m.output) (hn' : n'.output = m'.output) :
    SentAlike N m.output m'.output (.ok () n) (.ok () n') :=
  .ok [] h (hn.trans (List.append_nil _).symm)
    (hn'.trans (List.append_nil _).symm)

theorem sendAlike_skip :
    SendAlike N (pure () : Run (List Event) Unit) (pure ()) :=
  fun _ _ h => sentAlike_idle h rfl rfl

theorem sendAlike_throw (e e' : Stop) :
    SendAlike N (throw e : Run (List Event) Unit) (throw e') :=
  fun _ _ _ => .stopped

theorem sendAlike_seq (hx : SendAlike N x x') (hy : SendAlike N y y') :
    SendAlike N (x >>= fun _ => y) (x' >>= fun _ => y') := by
  intro m m' h
  have hend := hx m m' h
  generalize hm : x m = r at hend
  generalize hm' : x' m' = r' at hend
  cases hend with
  | stopped =>
    rw [bind_error hm, bind_error hm']
    exact .stopped
  | @ok n n' es hn hsent hsent' =>
    rw [bind_ok hm, bind_ok hm']
    have hend := hy n n' hn
    rw [hsent, hsent'] at hend
    generalize y n = r at hend ⊢
    generalize y' n' = r' at hend ⊢
    cases hend with
    | stopped => exact .stopped
    | ok fs hn hfs hfs' =>
      rw [List.append_assoc] at hfs hfs'
      exact .ok (es ++ fs) hn hfs hfs'

theorem sendAlike_read {α β : Type} {Q : α → β → Prop} {r : Reading α}
    {r' : Reading β} {f : α → Run (List Event) Unit}
    {f' : β → Run (List Event) Unit} (hr : ReadAlike N Q r r')
    (hf : ∀ a b, Q a b → SendAlike N (f a) (f' b)) :
    SendAlike N (read r >>= f) (read r' >>= f') :=
  fun m m' h => alike_reads h.scopes.environment hr
    (fun _ _ hab => hf _ _ hab m m' h) fun _ _ _ => .stopped

theorem sendAlike_onScope {n n' : Node}
    {f f' : Scopes → Except ScopeError Scopes}
    (hf : ∀ scopes scopes', scopes.Beside N scopes' →
      Changed (Scopes.Beside N) (f scopes) (f' scopes')) :
    SendAlike N (onScope n f) (onScope n' f') :=
  fun m m' h => (hf _ _ h.scopes).onScope
    (fun _ _ hscopes => sentAlike_idle ⟨hscopes, h.nesting, h.cache⟩ rfl rfl)
    fun _ => .stopped

/-- Changes around a run that leave what was sent. -/
theorem sendAlike_between {enter enter' leave leave' :
      Machine (List Event) → Machine (List Event)}
    (henter : ∀ m m', m.Beside N m' → (enter m).Beside N (enter' m'))
    (hleave : ∀ m m', m.Beside N m' → (leave m).Beside N (leave' m'))
    (houtput : ∀ m, (enter m).output = m.output ∧ (enter' m).output = m.output
      ∧ (leave m).output = m.output ∧ (leave' m).output = m.output)
    (hx : SendAlike N x x') :
    SendAlike N (between enter leave x) (between enter' leave' x') := by
  intro m m' h
  have hend := hx _ _ (henter m m' h)
  rw [(houtput m).1, (houtput m').2.1] at hend
  unfold between
  generalize x (enter m) = r at hend ⊢
  generalize x' (enter' m') = r' at hend ⊢
  cases hend with
  | stopped => exact .stopped
  | ok es hn hsent hsent' =>
    refine .ok es (hleave _ _ hn) ?_ ?_
    · exact (houtput _).2.2.1.trans hsent
    · exact (houtput _).2.2.2.trans hsent'

theorem sendAlike_inScope [Likeness N] {n n' : Node} (hn : N n n')
    (hx : SendAlike N x x') : SendAlike N (inScope n x) (inScope n' x') :=
  sendAlike_between (fun _ _ h => ⟨h.scopes.push hn, h.nesting, h.cache⟩)
    (fun _ _ h => ⟨h.scopes.pop, h.nesting, h.cache⟩)
    (fun _ => ⟨rfl, rfl, rfl, rfl⟩) hx

theorem sendAlike_nested (hx : SendAlike N x x') :
    SendAlike N (nested x) (nested x') :=
  sendAlike_between
    (fun _ _ h => ⟨h.scopes, congrArg (· + 1) h.nesting, h.cache⟩)
    (fun _ _ h => ⟨h.scopes, congrArg (· - 1) h.nesting, h.cache⟩)
    (fun _ => ⟨rfl, rfl, rfl, rfl⟩) hx

theorem sendAlike_setBase (base : Option Url) :
    SendAlike N (setBase base) (setBase base) :=
  fun _ _ h =>
    sentAlike_idle ⟨h.scopes.setBase base, h.nesting, h.cache⟩ rfl rfl

-- ================================================================ settings

section

variable {s : Settings (List Event)}

/-- A log takes what is sent. -/
theorem send_log (hs : s.sink = Sink.log) (e : Event)
    (m : Machine (List Event)) :
    send s e m = .ok () { m with output := m.output ++ [e] } := by
  unfold send
  rw [hs]
  rfl

theorem sendAll_log (hs : s.sink = Sink.log) (es : List Event)
    (m : Machine (List Event)) :
    sendAll s es m = .ok () { m with output := m.output ++ es } := by
  induction es generalizing m with
  | nil =>
    rw [List.append_nil]
    rfl
  | cons e es ih =>
    show (send s e >>= fun _ => sendAll s es) m = _
    rw [bind_ok (send_log hs e m), ih, List.append_assoc]
    rfl

theorem sendAlike_send (hs : s.sink = Sink.log) (e : Event) :
    SendAlike N (send s e) (send s e) := by
  intro m m' h
  rw [send_log hs, send_log hs]
  exact .ok [e] ⟨h.scopes, h.nesting, h.cache⟩ rfl rfl

theorem sendAlike_sendAll (hs : s.sink = Sink.log) (es : List Event) :
    SendAlike N (sendAll s es) (sendAll s es) := by
  intro m m' h
  rw [sendAll_log hs, sendAll_log hs]
  exact .ok es ⟨h.scopes, h.nesting, h.cache⟩ rfl rfl

theorem sendAlike_load {f f' : Except Loading.Error Document →
      Run (List Event) Unit} (url : Url) (same : ∀ n, N n n)
    (hf : ∀ d d', LoadedAlike N d d' → SendAlike N (f d) (f' d')) :
    SendAlike N (load s url >>= f) (load s url >>= f') := by
  intro m m' h
  have hcache : Loading.load s.source m.cache url
      = Loading.load s.source m'.cache url := by rw [h.cache]
  refine hf _ _ ?_ { m with cache := (Loading.load s.source m.cache url).2 }
    { m' with cache := (Loading.load s.source m'.cache url).2 }
    ⟨h.scopes, h.nesting, congrArg Prod.snd hcache⟩
  show LoadedAlike N (Loading.load s.source m.cache url).1
    (Loading.load s.source m'.cache url).1
  rw [hcache]
  exact loadedAlike_same same _

theorem sendAlike_sequential : Matching.Sequential N (SendAlike N) where
  skip := sendAlike_skip
  seq := sendAlike_seq
  binding _ name v := sendAlike_onScope fun _ _ hs =>
    hs.onCurrent fun _ _ hscope => hscope.bind name ⟨v, false⟩

/-- The interpreter sends the same, whatever was sent before. -/
theorem sendAlike_congruence [Likeness N] (hs : s.sink = Sink.log)
    (same : ∀ n, N n n) (hN : Descends s.uri N) :
    Matching.Congruence N (fun _ => True) s s (SendAlike N) where
  toSequential := sendAlike_sequential
  uri := rfl
  same := same
  descends := hN
  fault _ := sendAlike_throw _ _
  reading := sendAlike_read
  state h m m' hm := h m m' hm.scopes.seen m m' hm
  resolved _ _ := trivial
  loading _ hf := sendAlike_load _ same hf
  definition h name := sendAlike_onScope fun _ _ hs =>
    hs.onCurrent fun _ _ hscope => hscope.define name h
  characters _ := sendAlike_send hs _
  cdata _ := sendAlike_sendAll hs _
  doctype _ _ _ := sendAlike_sendAll hs _
  enclosed _ _ hx := sendAlike_seq (sendAlike_send hs _)
    (sendAlike_seq hx (sendAlike_send hs _))
  inScope := sendAlike_inScope
  nested := sendAlike_nested
  rebased h _ hx := sendAlike_inScope h (sendAlike_seq (sendAlike_setBase _) hx)
  floating h name r hx :=
    sendAlike_sequential.runFloat (sendAlike_throw _ _) rfl h name r hx

end

end Stencil.Template
