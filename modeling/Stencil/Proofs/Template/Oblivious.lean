/-
Processing is oblivious of its sink.

Whatever the sink, the events it is sent are those of a run that no sink
disturbs, up to the first that is refused; then the run stops for that reason.
As the writer does not mind how character data is cut in pieces, it writes a
recording of a run as it writes the run itself.
-/
import Stencil.Proofs.Output.Chunks
import Stencil.Proofs.Template.Delivery

namespace Stencil.Template

open Markup (Label Node)
open Output (Event Sink Writer Recording)
open Output.Sink (Accepting accepting_recording)

variable {σ τ : Type}

/-- The stop of a run whose sink refused an event. -/
def refusal (e : Output.Error) : Stop := .failed (.general (.output e))

namespace Processor

theorem delivers_document (p : Processor) (sink : Sink σ) :
    Delivers sink (p.document sink) (p.document Sink.log) := by
  have c := delivers_congruence (p.settings sink)
  have start : Delivers sink (send (p.settings sink) .startDocument)
      (send (p.settings Sink.log) .startDocument) :=
    delivers_send (s := p.settings sink) .startDocument
  have stop : Delivers sink (send (p.settings sink) .endDocument)
      (send (p.settings Sink.log) .endDocument) :=
    delivers_send (s := p.settings sink) .endDocument
  have root := c.execute (c.inner nestingLimit) p.root
  exact delivers_seq start (delivers_seq root stop)

/-- The events of a run that no sink disturbs. -/
def course (p : Processor) : List Event := (p.runInto Sink.log []).output

/-- How a run ends that no sink disturbs. -/
def outcome (p : Processor) : Option Stop := (p.runInto Sink.log []).stop

/-- A run into a sink is the course of the processor, delivered. -/
theorem runInto_eq_deliver (p : Processor) (sink : Sink σ) (o : σ) :
    (p.runInto sink o).output = (sink.deliver o p.course).1
    ∧ (p.runInto sink o).stop
      = ((sink.deliver o p.course).2.map refusal).or p.outcome := by
  obtain ⟨es, hes, hend⟩ := p.delivers_document sink (p.machine o) []
  have hstart : (p.machine o).outputting ([] : List Event) = p.machine [] :=
    rfl
  rw [hstart] at hes hend
  -- the course is what the free run sends from nothing
  have hcourse : p.course = es := by
    rw [List.nil_append] at hes
    rw [← hes]
    unfold course runInto after
    cases p.document Sink.log (p.machine []) <;> rfl
  rw [hcourse]
  unfold outcome runInto
  generalize p.document Sink.log (p.machine []) = free at hend ⊢
  generalize p.document sink (p.machine o) = r at hend ⊢
  cases hend with
  | accepted hd =>
    have hd : sink.deliver o es = _ := hd
    rw [hd]
    cases free <;> exact ⟨rfl, rfl⟩
  | refused hd =>
    have hd : sink.deliver o es = _ := hd
    rw [hd]
    exact ⟨rfl, rfl⟩

/-- Behind the start of the document comes what the root sends, and the end. -/
theorem document_log (p : Processor) :
    p.document Sink.log (p.machine [])
      = (process (p.settings Sink.log) p.root >>= fun _ =>
          send (p.settings Sink.log) .endDocument)
        (p.machine [.startDocument]) := rfl

/-- A run that no sink disturbs goes well if the root does, and then sends what
the root sends. -/
theorem runInto_log_iff {p : Processor} {out : List Event}
    {cache : Loading.Cache} :
    p.runInto Sink.log [] = ⟨none, out, cache⟩ ↔
      ∃ m, process (p.settings Sink.log) p.root (p.machine [.startDocument])
          = .ok () m ∧ out = m.output ++ [.endDocument] ∧ cache = m.cache := by
  unfold runInto
  rw [document_log]
  cases hrun : process (p.settings Sink.log) p.root (p.machine [.startDocument])
    with
  | error e m =>
    rw [bind_error hrun]
    constructor
    · intro h
      cases h
    · rintro ⟨_, h, -⟩
      cases h
  | ok _ m =>
    rw [bind_ok hrun]
    constructor
    · intro h
      cases h
      exact ⟨m, rfl, rfl, rfl⟩
    · rintro ⟨_, h, rfl, rfl⟩
      cases h
      rfl

/-- The course of a run that ends well is what the root sends, and the end. -/
theorem exists_of_outcome {p : Processor} (h : p.outcome = none) :
    ∃ m, process (p.settings Sink.log) p.root (p.machine [.startDocument])
        = .ok () m ∧ p.course = m.output ++ [.endDocument] := by
  have ended : p.runInto Sink.log []
      = ⟨none, p.course, (p.runInto Sink.log []).cache⟩ := by
    rw [← h]
    rfl
  obtain ⟨m, hrun, hcourse, -⟩ := runInto_log_iff.1 ended
  exact ⟨m, hrun, hcourse⟩

-- =================================================================== calls

/-- The events that a run sends to a sink, a refused one with them. -/
def calls (p : Processor) (sink : Sink σ) (o : σ) : List Event :=
  (p.runInto sink.logged ([], o)).output.1

theorem calls_eq_sent (p : Processor) (sink : Sink σ) (o : σ) :
    p.calls sink o = sink.sent o p.course := by
  unfold calls
  rw [(p.runInto_eq_deliver _ _).1, Sink.deliver_logged, List.nil_append]

theorem calls_of_accepting (p : Processor) {sink : Sink σ}
    (h : sink.Accepting) (o : σ) : p.calls sink o = p.course := by
  rw [calls_eq_sent]
  exact Sink.sent_of_accepted (h.deliver o p.course)

theorem stop_of_accepting (p : Processor) {sink : Sink σ}
    (h : sink.Accepting) (o : σ) : (p.runInto sink o).stop = p.outcome := by
  rw [(p.runInto_eq_deliver sink o).2, h.deliver o p.course]
  rfl

/-- Keeping a log of the events does not disturb a run. -/
theorem runInto_logged (p : Processor) (sink : Sink σ) (o : σ) :
    (p.runInto sink.logged ([], o)).output.2 = (p.runInto sink o).output
    ∧ (p.runInto sink.logged ([], o)).stop = (p.runInto sink o).stop := by
  obtain ⟨houtput, hstop⟩ := p.runInto_eq_deliver sink.logged ([], o)
  obtain ⟨houtput', hstop'⟩ := p.runInto_eq_deliver sink o
  rw [Sink.deliver_logged] at houtput hstop
  rw [houtput, hstop, houtput', hstop']
  exact ⟨rfl, rfl⟩

/-- What a sink that refuses an event is sent of what another one takes. -/
theorem calls_of_refusing (p : Processor) (sink : Sink σ) (o : σ) :
    (p.calls sink o = p.course ∧ (sink.deliver o p.course).2 = none
        ∧ (p.runInto sink o).stop = p.outcome)
    ∨ ∃ accepted refused rest e, p.course = accepted ++ refused :: rest
        ∧ p.calls sink o = accepted ++ [refused]
        ∧ (sink.deliver o accepted).2 = none
        ∧ (sink.send (sink.deliver o accepted).1 refused).2 = some e
        ∧ (p.runInto sink o).stop = some (refusal e) := by
  rw [calls_eq_sent, (p.runInto_eq_deliver sink o).2]
  cases hd : (sink.deliver o p.course).2 with
  | none => exact .inl ⟨Sink.sent_of_accepted hd, rfl, rfl⟩
  | some e =>
    obtain ⟨accepted, refused, rest, hes, hsent, hall, hlast⟩ :=
      Sink.sent_of_refused hd
    exact .inr ⟨accepted, refused, rest, e, hes, hsent, hall, hlast, rfl⟩

/-- The writer makes of a recording what it makes of the run. -/
theorem writeXml_of_recording (p : Processor) (room : Option Nat) :
    (p.writeXml room).output
      = (Writer.sink.deliver
          (.fresh .xml p.options.whitespace p.options.declaration room)
          (p.runInto Recording.sink .empty).output.events).1 := by
  have hrecorded := Writer.joinsText.deliver_recorded
    (.fresh .xml p.options.whitespace p.options.declaration room)
    .empty p.course
  rw [(p.runInto_eq_deliver Recording.sink .empty).1, hrecorded]
  exact (p.runInto_eq_deliver Writer.sink _).1

/-- A sink has no say in a run but to end it: it is sent what a sink that
takes everything is sent, up to the first event that it refuses, and then the
run stops for that reason. And the writer is left as it is by the recorded
events, so what is written as XML is what they are written as, also if the run
fails. -/
theorem sink_only_interrupts (p : Processor) :
    (∀ {σ τ : Type} (sink : Sink σ) (o : σ) (free : Sink τ) (o' : τ),
      free.Accepting →
        (p.calls sink o = p.calls free o'
            ∧ (sink.deliver o (p.calls sink o)).2 = none
            ∧ (p.runInto sink o).stop = (p.runInto free o').stop)
        ∨ ∃ accepted refused rest e,
            p.calls free o' = accepted ++ refused :: rest
            ∧ p.calls sink o = accepted ++ [refused]
            ∧ (sink.deliver o accepted).2 = none
            ∧ (sink.send (sink.deliver o accepted).1 refused).2 = some e
            ∧ (p.runInto sink o).stop = some (refusal e))
    ∧ (∀ {σ : Type} (sink : Sink σ) (o : σ),
        (p.runInto sink.logged ([], o)).output.2 = (p.runInto sink o).output
        ∧ (p.runInto sink.logged ([], o)).stop = (p.runInto sink o).stop)
    ∧ ∀ room,
        (p.writeXml room).output
          = (Writer.sink.deliver
              (.fresh .xml p.options.whitespace p.options.declaration room)
              (p.runInto Recording.sink .empty).output.events).1 := by
  refine ⟨fun sink o free o' hfree => ?_, p.runInto_logged,
    p.writeXml_of_recording⟩
  -- a sink that refuses nothing is sent the course, whichever it is
  rw [p.calls_of_accepting hfree, p.stop_of_accepting hfree]
  rcases p.calls_of_refusing sink o with ⟨hcalls, hall, hstop⟩ | hrefused
  · exact .inl ⟨hcalls, hcalls ▸ hall, hstop⟩
  · exact .inr hrefused

/-- A processor of an element without contents. -/
def hollow : Processor :=
  let label : Label :=
    ⟨1, ⟨1, 1⟩, .element ⟨⟨"a", none, "a"⟩, none, [], []⟩⟩
  let root : Node := ⟨.given 0, .node label [], []⟩
  ⟨root, .fresh root none, .standard, .memory [], .empty⟩

/-- A full destination interrupts the run that a recording goes through. -/
theorem interrupted_by_full_writer :
    Accepting Recording.sink
    ∧ ∃ accepted refused rest e,
        hollow.calls Recording.sink .empty = accepted ++ refused :: rest
        ∧ hollow.calls Writer.sink (.fresh .xml .all false (some 0))
          = accepted ++ [refused]
        ∧ (hollow.runInto Writer.sink (.fresh .xml .all false (some 0))).stop
          = some (refusal e) := by
  refine ⟨accepting_recording, ?_⟩
  rcases hollow.sink_only_interrupts.1 Writer.sink
      (.fresh .xml .all false (some 0)) Recording.sink .empty
      accepting_recording with ⟨-, -, hstop⟩ | hrefused
  · exact absurd (congrArg Option.isSome hstop) (by decide)
  · obtain ⟨accepted, refused, rest, e, hfree, hsent, -, -, hstop⟩ := hrefused
    exact ⟨accepted, refused, rest, e, hfree, hsent, hstop⟩

end Processor

end Stencil.Template
