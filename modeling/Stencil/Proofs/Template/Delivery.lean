/-
A run does not look at its sink.

Of a run into any sink all is known from the run into a mere log: the events
that the log holds are delivered to the sink, in order, up to the first that
it refuses, and if it refuses one the run stops there for that reason. So a
run is a recording, and what a sink makes of the recording.
-/
import Stencil.Proofs.Output.Delivery
import Stencil.Proofs.Template.Congruence
import Stencil.Proofs.Template.Outcome
import Stencil.Template.Processor

namespace Stencil.Template

open Markup (Node)
open Output (Event Sink)

variable {σ τ α : Type}

-- ================================================================ machines

/-- The machine with another output. -/
def Machine.outputting (m : Machine σ) (o : τ) : Machine τ :=
  ⟨m.scopes, m.nesting, m.cache, o⟩

/-- The same end of a run, on a machine with another output. -/
def endOutputting (r : EStateM.Result Stop (Machine σ) α) (o : τ) :
    EStateM.Result Stop (Machine τ) α :=
  match r with
  | .ok a m => .ok a (m.outputting o)
  | .error e m => .error e (m.outputting o)

/-- The settings of a run into a log. -/
def Settings.logging (s : Settings σ) : Settings (List Event) :=
  ⟨s.uri, Sink.log, s.source, s.passes⟩

-- =============================================================== the relation

/-- How a run into a sink ends when `es` are its events and the run into a
log ends in `free`. -/
inductive Ends (sink : Sink σ) (o : σ) (es : List Event)
    (free : EStateM.Result Stop (Machine (List Event)) Unit) :
    EStateM.Result Stop (Machine σ) Unit → Prop
  | accepted {o' : σ} (h : sink.deliver o es = (o', none)) :
      Ends sink o es free (endOutputting free o')
  | refused {e : Output.Error} {m : Machine σ}
      (h : sink.deliver o es = (m.output, some e)) :
      Ends sink o es free (.error (.failed (.general (.output e))) m)

/-- A run into a sink does what the run into a log does, with the events of
that one delivered. -/
def Delivers (sink : Sink σ) (x : Run σ Unit) (y : Run (List Event) Unit) :
    Prop :=
  ∀ m log, ∃ es, (after y (m.outputting log)).output = log ++ es
    ∧ Ends sink m.output es (y (m.outputting log)) (x m)

variable {sink : Sink σ} {x x' : Run σ Unit} {y y' : Run (List Event) Unit}

/-- Steps that send nothing and do the same on both sides. -/
theorem delivers_of_silent
    (h : ∀ m (log : List Event), x m
      = endOutputting (y (m.outputting log)) m.output)
    (hy : ∀ m, (after y m).output = m.output) : Delivers sink x y := by
  intro m log
  refine ⟨[], ?_, ?_⟩
  · rw [hy, List.append_nil]
    rfl
  · rw [h m log]
    exact .accepted rfl

theorem delivers_skip : Delivers sink (pure ()) (pure ()) :=
  delivers_of_silent (fun _ _ => rfl) fun _ => rfl

theorem delivers_throw (e : Stop) : Delivers sink (throw e) (throw e) :=
  delivers_of_silent (fun _ _ => rfl) fun _ => rfl

theorem delivers_seq (h : Delivers sink x y) (h' : Delivers sink x' y') :
    Delivers sink (x >>= fun _ => x') (y >>= fun _ => y') := by
  intro m log
  obtain ⟨es, hes, hend⟩ := h m log
  cases hy : y (m.outputting log) with
  | error e n =>
    rw [after_error hy] at hes
    rw [hy] at hend
    refine ⟨es, ?_, ?_⟩
    · rw [after_error (bind_error hy)]
      exact hes
    · rw [bind_error hy]
      generalize hx : x m = r at hend
      cases hend with
      | accepted hd =>
        rw [bind_error hx]
        exact .accepted hd
      | refused hd =>
        rw [bind_error hx]
        exact .refused hd
  | ok a n =>
    rw [after_ok hy] at hes
    rw [hy] at hend
    -- with what was sent put back into its output, the machine is the one in
    -- which the free run goes on
    have back (o : σ) : (n.outputting o).outputting (log ++ es) = n := by
      rw [← hes]
      rfl
    generalize hx : x m = r at hend
    cases hend with
    | @accepted o' hd =>
      obtain ⟨fs, hfs, hend'⟩ := h' (n.outputting o') (log ++ es)
      rw [back] at hfs hend'
      refine ⟨es ++ fs, ?_, ?_⟩
      · rw [after, bind_ok hy, ← List.append_assoc]
        exact hfs
      · rw [bind_ok hy, bind_ok hx]
        generalize x' (n.outputting o') = r at hend'
        cases hend' with
        | accepted hd' =>
          refine .accepted ?_
          rw [Sink.deliver_append_of_accepted hd]
          exact hd'
        | refused hd' =>
          refine .refused ?_
          rw [Sink.deliver_append_of_accepted hd]
          exact hd'
    | refused hd =>
      -- the sink stopped the run in its first part; the free run goes on, but
      -- what it sends is not asked for any more
      obtain ⟨fs, hfs, -⟩ := h' (n.outputting m.output) (log ++ es)
      rw [back] at hfs
      refine ⟨es ++ fs, ?_, ?_⟩
      · rw [after, bind_ok hy, ← List.append_assoc]
        exact hfs
      · rw [bind_error hx]
        exact .refused (Sink.deliver_append_of_refused hd fs)

-- =================================================================== steps

theorem delivers_read {β γ : Type} {Q : β → γ → Prop} {r : Reading β}
    {r' : Reading γ} {f : β → Run σ Unit} {f' : γ → Run (List Event) Unit}
    (hr : ∀ env, Alike Q (r env) (r' env))
    (hf : ∀ a b, Q a b → Delivers sink (f a) (f' b)) :
    Delivers sink (read r >>= f) (read r' >>= f') := by
  intro m log
  have halike := hr m.scopes.environment
  generalize ha : r m.scopes.environment = a at halike
  generalize hb : r' m.scopes.environment = b at halike
  cases halike with
  | @ok a b hab =>
    have hread : (read r' : Run (List Event) γ) (m.outputting log)
        = .ok b (m.outputting log) := read_ok hb
    rw [after, bind_ok hread, bind_ok (read_ok ha)]
    exact hf a b hab m log
  | @error d =>
    have hread : (read r' : Run (List Event) γ) (m.outputting log)
        = .error (.failed d) (m.outputting log) := read_error hb
    rw [after, bind_error hread, bind_error (read_error ha)]
    exact delivers_throw (.failed d) m log

theorem delivers_onScope (n : Node)
    (f : Scopes → Except ScopeError Scopes) :
    Delivers sink (onScope n f) (onScope n f) := by
  refine delivers_of_silent (fun m log => ?_) fun m => ?_
  · have hscopes : (m.outputting log).scopes = m.scopes := rfl
    unfold onScope
    rw [hscopes]
    cases f m.scopes <;> rfl
  · unfold after onScope
    cases f m.scopes <;> rfl

theorem delivers_setBase (base : Option Url) :
    Delivers sink (setBase base) (setBase base) :=
  delivers_of_silent (fun _ _ => rfl) fun _ => rfl

/-- The same changes around a run on both sides, of scopes and nesting. -/
theorem delivers_between (enter leave : Scopes → Scopes) (up down : Nat → Nat)
    (h : Delivers sink x y) :
    Delivers sink
      (between
        (fun m => { m with scopes := enter m.scopes, nesting := up m.nesting })
        (fun m =>
          { m with scopes := leave m.scopes, nesting := down m.nesting })
        x)
      (between
        (fun m => { m with scopes := enter m.scopes, nesting := up m.nesting })
        (fun m =>
          { m with scopes := leave m.scopes, nesting := down m.nesting })
        y) := by
  intro m log
  obtain ⟨es, hes, hend⟩ := h
    { m with scopes := enter m.scopes, nesting := up m.nesting } log
  refine ⟨es, ?_, ?_⟩
  · rw [after_between]
    exact hes
  · have hin : ({ m with scopes := enter m.scopes, nesting := up m.nesting } :
        Machine σ).outputting log
      = { m.outputting log with
          scopes := enter (m.outputting log).scopes
          nesting := up (m.outputting log).nesting } := rfl
    rw [hin] at hend
    unfold between
    dsimp only at hend ⊢
    generalize y _ = free at hend ⊢
    generalize x _ = r at hend ⊢
    cases hend with
    | accepted hd => cases free <;> exact .accepted hd
    | refused hd => exact .refused hd

theorem delivers_inScope (anchor : Node) (h : Delivers sink x y) :
    Delivers sink (inScope anchor x) (inScope anchor y) :=
  delivers_between (·.push anchor) (·.pop) id id h

theorem delivers_nested (h : Delivers sink x y) :
    Delivers sink (nested x) (nested y) :=
  delivers_between id id (· + 1) (· - 1) h

section

variable {s : Settings σ}

theorem delivers_send (e : Event) :
    Delivers s.sink (send s e) (send s.logging e) := by
  intro m log
  refine ⟨[e], rfl, ?_⟩
  have hfree : send s.logging e (m.outputting log)
      = .ok () (m.outputting (log ++ [e])) := rfl
  rw [hfree]
  unfold send
  rcases hsend : s.sink.send m.output e with ⟨o, _ | error⟩
  · have hd : s.sink.deliver m.output [e] = (o, none) :=
      Sink.deliver_cons_of_accepted hsend
    exact .accepted hd
  · exact .refused (Sink.deliver_cons_of_refused hsend)

theorem delivers_sendAll (es : List Event) :
    Delivers s.sink (sendAll s es) (sendAll s.logging es) := by
  induction es with
  | nil => exact delivers_skip
  | cons e es ih => exact delivers_seq (delivers_send e) ih

theorem delivers_load {f : Except Loading.Error Markup.Document → Run σ Unit}
    {f' : Except Loading.Error Markup.Document → Run (List Event) Unit}
    (url : Url) (h : ∀ d, Delivers sink (f d) (f' d)) :
    Delivers sink (load s url >>= f) (load s.logging url >>= f') := by
  intro m log
  exact h (Loading.load s.source m.cache url).1
    { m with cache := (Loading.load s.source m.cache url).2 } log

theorem delivers_sequential : Sequential (Delivers sink) where
  skip := delivers_skip
  seq := delivers_seq
  binding n _ _ := delivers_onScope n _

/-- The interpreter delivers: every step does. -/
theorem delivers_congruence (s : Settings σ) :
    Congruence s s.logging (Delivers s.sink) where
  toSequential := delivers_sequential
  uri := rfl
  fault _ := delivers_throw _
  reading := delivers_read
  state h m log := h m (m.outputting log) rfl m log
  loading url h := delivers_load url h
  definition n _ := delivers_onScope n _
  characters _ := delivers_send _
  cdata _ := delivers_sendAll _
  doctype _ _ _ := delivers_sendAll _
  enclosed _ _ h := delivers_seq (delivers_send _)
    (delivers_seq h (delivers_send _))
  inScope anchor h := delivers_inScope anchor h
  nested h := delivers_nested h
  rebased root _ h := delivers_inScope root
    (delivers_seq (delivers_setBase _) h)
  floating n name r h := by
    have hp : s.passes = s.logging.passes := rfl
    exact delivers_sequential.runFloat (delivers_throw _) hp n name r h

end

end Stencil.Template
