/-
Sequences of events at a sink. A sequence is delivered up to the first event
that the sink refuses; which events are sent then is a matter of the sink and
of the sequence alone.

A sink can be watched: with a log of every event it is sent it behaves as it
does without one.
-/
import Stencil.Output.Event

namespace Stencil.Output

variable {σ : Type}

namespace Sink

-- ============================================================== definitions

/-- Sends events up to the first that is refused. -/
def deliver (sink : Sink σ) (o : σ) : List Event → σ × Option Error
  | [] => (o, none)
  | e :: es =>
    match sink.send o e with
    | (o, none) => sink.deliver o es
    | (o, some error) => (o, some error)

/-- The events that are sent, the refused one with them. -/
def sent (sink : Sink σ) (o : σ) : List Event → List Event
  | [] => []
  | e :: es =>
    match sink.send o e with
    | (o, none) => e :: sink.sent o es
    | (_, some _) => [e]

/-- The sink with a log of all that it is sent. -/
def logged (sink : Sink σ) : Sink (List Event × σ) where
  send o e := ((o.1 ++ [e], (sink.send o.2 e).1), (sink.send o.2 e).2)

/-- A log by itself. -/
def log : Sink (List Event) where
  send es e := (es ++ [e], none)

/-- No event is ever refused. -/
def Accepting (sink : Sink σ) : Prop :=
  ∀ o e, (sink.send o e).2 = none

variable {sink : Sink σ} {o o' : σ} {e : Event} {es : List Event}

-- ================================================================= delivery

theorem deliver_cons_of_accepted (h : sink.send o e = (o', none)) :
    sink.deliver o (e :: es) = sink.deliver o' es := by
  rw [deliver, h]

theorem deliver_cons_of_refused {error : Error}
    (h : sink.send o e = (o', some error)) :
    sink.deliver o (e :: es) = (o', some error) := by
  rw [deliver, h]

theorem deliver_append_of_accepted (h : sink.deliver o es = (o', none))
    (fs : List Event) : sink.deliver o (es ++ fs) = sink.deliver o' fs := by
  induction es generalizing o with
  | nil =>
    cases h
    rfl
  | cons e es ih =>
    rw [List.cons_append]
    rcases hsend : sink.send o e with ⟨o₁, _ | error⟩
    · rw [deliver_cons_of_accepted hsend] at h ⊢
      exact ih h
    · rw [deliver_cons_of_refused hsend] at h
      cases h

theorem deliver_append_of_refused {error : Error}
    (h : sink.deliver o es = (o', some error)) (fs : List Event) :
    sink.deliver o (es ++ fs) = (o', some error) := by
  induction es generalizing o with
  | nil => cases h
  | cons e es ih =>
    rw [List.cons_append]
    rcases hsend : sink.send o e with ⟨o₁, _ | error₁⟩
    · rw [deliver_cons_of_accepted hsend] at h ⊢
      exact ih h
    · rw [deliver_cons_of_refused hsend] at h ⊢
      exact h

theorem Accepting.deliver (h : sink.Accepting) (o : σ) (es : List Event) :
    (sink.deliver o es).2 = none := by
  induction es generalizing o with
  | nil => rfl
  | cons e es ih =>
    have hsend : sink.send o e = ((sink.send o e).1, none) :=
      Prod.ext rfl (h o e)
    rw [deliver_cons_of_accepted hsend]
    exact ih _

-- ====================================================================== logs

theorem accepting_log : Accepting log := fun _ _ => rfl

/-- A log takes everything. -/
theorem deliver_log (es fs : List Event) :
    log.deliver es fs = (es ++ fs, none) := by
  induction fs generalizing es with
  | nil => rw [List.append_nil]; rfl
  | cons f fs ih =>
    have hsend : log.send es f = (es ++ [f], none) := rfl
    rw [deliver_cons_of_accepted hsend, ih, List.append_assoc]
    rfl

/-- A log does not disturb the sink, and holds what the sink was sent. -/
theorem deliver_logged (sink : Sink σ) (es : List Event) (o : σ)
    (fs : List Event) :
    sink.logged.deliver (es, o) fs
      = ((es ++ sink.sent o fs, (sink.deliver o fs).1),
        (sink.deliver o fs).2) := by
  induction fs generalizing es o with
  | nil =>
    rw [sent, List.append_nil]
    rfl
  | cons e fs ih =>
    have hlogged : sink.logged.send (es, o) e
        = ((es ++ [e], (sink.send o e).1), (sink.send o e).2) := rfl
    rcases hsend : sink.send o e with ⟨o₁, _ | error⟩
    · rw [hsend] at hlogged
      rw [deliver_cons_of_accepted hlogged, ih, sent, hsend,
        deliver_cons_of_accepted hsend, List.append_assoc]
      rfl
    · rw [hsend] at hlogged
      rw [deliver_cons_of_refused hlogged, sent, hsend,
        deliver_cons_of_refused hsend]

-- ================================================================= prefixes

theorem sent_of_accepted (h : (sink.deliver o es).2 = none) :
    sink.sent o es = es := by
  induction es generalizing o with
  | nil => rfl
  | cons e es ih =>
    rcases hsend : sink.send o e with ⟨o₁, _ | error⟩
    · rw [deliver_cons_of_accepted hsend] at h
      rw [sent, hsend]
      exact congrArg (e :: ·) (ih h)
    · rw [deliver_cons_of_refused hsend] at h
      cases h

/-- A sequence that is not all delivered stops at an event that is refused. -/
theorem exists_refused {error : Error}
    (h : sink.deliver o es = (o', some error)) :
    ∃ accepted refused rest o₁, es = accepted ++ refused :: rest
      ∧ sink.deliver o accepted = (o₁, none)
      ∧ sink.send o₁ refused = (o', some error) := by
  induction es generalizing o with
  | nil => cases h
  | cons e es ih =>
    rcases hsend : sink.send o e with ⟨o₁, _ | error₁⟩
    · rw [deliver_cons_of_accepted hsend] at h
      obtain ⟨accepted, refused, rest, o₂, rfl, hall, hlast⟩ := ih h
      exact ⟨e :: accepted, refused, rest, o₂, rfl,
        (deliver_cons_of_accepted hsend).trans hall, hlast⟩
    · rw [deliver_cons_of_refused hsend] at h
      exact ⟨[], e, es, o, rfl, rfl, hsend.trans h⟩

/-- If an event is refused, what is sent are the accepted ones before it, and
itself. -/
theorem sent_of_refused {error : Error}
    (h : (sink.deliver o es).2 = some error) :
    ∃ accepted refused rest, es = accepted ++ refused :: rest
      ∧ sink.sent o es = accepted ++ [refused]
      ∧ (sink.deliver o accepted).2 = none
      ∧ (sink.send (sink.deliver o accepted).1 refused).2 = some error := by
  induction es generalizing o with
  | nil => cases h
  | cons e es ih =>
    -- the event is taken, or it is the one that is refused
    rcases hsend : sink.send o e with ⟨o₁, _ | error₁⟩
    · rw [deliver_cons_of_accepted hsend] at h
      obtain ⟨accepted, refused, rest, hes, hsent, hall, hlast⟩ := ih h
      refine ⟨e :: accepted, refused, rest, ?_, ?_, ?_, ?_⟩
      · rw [hes, List.cons_append]
      · rw [sent, hsend, List.cons_append]
        exact congrArg (e :: ·) hsent
      · rw [deliver_cons_of_accepted hsend]
        exact hall
      · rw [deliver_cons_of_accepted hsend]
        exact hlast
    · rw [deliver_cons_of_refused hsend] at h
      refine ⟨[], e, es, rfl, ?_, rfl, ?_⟩
      · rw [sent, hsend]
        rfl
      · rw [deliver, hsend]
        exact h

end Sink

end Stencil.Output
