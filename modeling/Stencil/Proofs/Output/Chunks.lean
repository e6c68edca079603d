/-
Character data may come in pieces. The writer takes two pieces in a row as it
takes the one that they make together, so it writes a recording, in which they
are joined, as it writes the events that were recorded.
-/
import Stencil.Output.Forest
import Stencil.Output.Recording
import Stencil.Output.Writer
import Stencil.Proofs.Output.Delivery

namespace Stencil.Output

variable {σ : Type}

/-- Two pieces of character data are taken like one, and pieces are never
refused. -/
structure Sink.JoinsText (sink : Sink σ) : Prop where
  accepts (o : σ) (s : String) : (sink.send o (.characters s)).2 = none
  joins (o : σ) (s t : String) :
    sink.send (sink.send o (.characters s)).1 (.characters t)
      = sink.send o (.characters (s ++ t))

theorem Writer.joinsText : Writer.sink.JoinsText where
  accepts _ _ := rfl
  joins w s t := by
    have hsend (w : Writer) (s : String) : Writer.sink.send w (.characters s)
        = (if w.inCData then { w with cdata := w.cdata ++ s }
          else { w with pending := w.pending ++ s }, none) := rfl
    rw [hsend, hsend, hsend]
    cases hin : w.inCData with
    | true => simp [String.append_assoc]
    | false => simp [String.append_assoc]

theorem Recording.joinsText : Recording.sink.JoinsText where
  accepts _ _ := rfl
  joins r s t := by
    have hsend (r : Recording) (e : Event) :
        Recording.sink.send r e = (r.push e, none) := rfl
    rw [hsend, hsend, hsend]
    obtain ⟨newest⟩ := r
    cases newest with
    | nil => rfl
    | cons e es =>
      cases e with
      | characters before =>
        simp only [Recording.push, String.append_assoc]
      | _ => rfl

namespace Sink

variable {sink : Sink σ}

theorem JoinsText.deliver_pair (hj : sink.JoinsText) (o : σ) (s t : String) :
    sink.deliver o [.characters s, .characters t]
      = sink.deliver o [.characters (s ++ t)] := by
  have hfirst : sink.send o (.characters s)
      = ((sink.send o (.characters s)).1, none) :=
    Prod.ext rfl (hj.accepts o s)
  rw [deliver_cons_of_accepted hfirst, deliver, deliver, hj.joins]

/-- What comes first can be replaced by what is taken alike. -/
theorem deliver_congr_append {es fs : List Event} {o : σ}
    (h : sink.deliver o es = sink.deliver o fs) (rest : List Event) :
    sink.deliver o (es ++ rest) = sink.deliver o (fs ++ rest) := by
  rcases hd : sink.deliver o es with ⟨o', _ | error⟩
  · rw [deliver_append_of_accepted hd, deliver_append_of_accepted (h ▸ hd)]
  · rw [deliver_append_of_refused hd, deliver_append_of_refused (h ▸ hd)]

/-- What comes last can be replaced by what is taken alike. -/
theorem deliver_append_congr {es fs : List Event}
    (h : ∀ o, sink.deliver o es = sink.deliver o fs) (o : σ)
    (before : List Event) :
    sink.deliver o (before ++ es) = sink.deliver o (before ++ fs) := by
  rcases hd : sink.deliver o before with ⟨o', _ | error⟩
  · rw [deliver_append_of_accepted hd, deliver_append_of_accepted hd]
    exact h o'
  · rw [deliver_append_of_refused hd, deliver_append_of_refused hd]

/-- Adding an event to a recording is adding it at the end. -/
theorem JoinsText.deliver_push (hj : sink.JoinsText) (o : σ) (r : Recording)
    (e : Event) :
    sink.deliver o (r.push e).events = sink.deliver o (r.events ++ [e]) := by
  have plain : (⟨e :: r.newest⟩ : Recording).events = r.events ++ [e] :=
    List.reverse_cons
  unfold Recording.push
  split
  · next s t rest hnewest =>
    have hevents : r.events = rest.reverse ++ [.characters t] := by
      rw [Recording.events, hnewest, List.reverse_cons]
    have hjoined : (⟨.characters (t ++ s) :: rest⟩ : Recording).events
        = rest.reverse ++ [.characters (t ++ s)] := List.reverse_cons
    rw [hevents, hjoined, List.append_assoc]
    exact deliver_append_congr (fun o => (hj.deliver_pair o t s).symm) o _
  · rw [plain]

theorem accepting_recording : Accepting Recording.sink := fun _ _ => rfl

/-- A recording is taken as the events that were recorded. -/
theorem JoinsText.deliver_recorded (hj : sink.JoinsText) (o : σ)
    (r : Recording) (es : List Event) :
    sink.deliver o (Recording.sink.deliver r es).1.events
      = sink.deliver o (r.events ++ es) := by
  induction es generalizing r with
  | nil => rw [List.append_nil, deliver]
  | cons e es ih =>
    have hpush : Recording.sink.send r e = (r.push e, none) := rfl
    rw [deliver_cons_of_accepted hpush, ih, List.append_cons]
    exact deliver_congr_append (hj.deliver_push o r e) es

-- ============================================================ joined events

/-- Where no character data changes nothing, a run of character data may be
taken in any pieces. -/
theorem JoinsText.deliver_joinFrom (hj : sink.JoinsText)
    (hidle : ∀ o, (sink.send o (.characters "")).1 = o) (pending : String)
    (es : List Event) (o : σ) :
    sink.deliver o (joinFrom pending es)
      = sink.deliver o (.characters pending :: es) := by
  -- what is joined may have come to nothing, and then it is left out
  have hnone (o : σ) (es : List Event) :
      sink.deliver o (.characters "" :: es) = sink.deliver o es := by
    have hsend : sink.send o (.characters "") = (o, none) :=
      Prod.ext (hidle o) (hj.accepts o "")
    exact deliver_cons_of_accepted hsend
  have hbehind (pending : String) {es fs : List Event}
      (h : ∀ o, sink.deliver o es = sink.deliver o fs) (o : σ) :
      sink.deliver o (.characters pending :: es)
        = sink.deliver o (.characters pending :: fs) :=
    deliver_append_congr h o [.characters pending]
  induction es generalizing pending o with
  | nil =>
    rw [joinFrom]
    split
    · next hempty => rw [String.isEmpty_iff.1 hempty, hnone]
    · rfl
  | cons e es ih =>
    have hrest (o : σ) :
        sink.deliver o (e :: joinFrom "" es) = sink.deliver o (e :: es) :=
      deliver_append_congr
        (fun o => (ih "" o).trans (hnone o es)) o [e]
    have hother : sink.deliver o (if pending.isEmpty then e :: joinFrom "" es
          else .characters pending :: e :: joinFrom "" es)
        = sink.deliver o (.characters pending :: e :: es) := by
      split
      · next hempty => rw [String.isEmpty_iff.1 hempty, hnone, hrest]
      · exact hbehind pending hrest o
    cases e with
    | characters s =>
      rw [joinFrom, ih]
      exact (deliver_congr_append (hj.deliver_pair o pending s) es).symm
    | _ => exact hother

theorem JoinsText.deliver_joined (hj : sink.JoinsText)
    (hidle : ∀ o, (sink.send o (.characters "")).1 = o) (es : List Event)
    (o : σ) : sink.deliver o (joined es) = sink.deliver o es := by
  rw [joined, hj.deliver_joinFrom hidle]
  have hsend : sink.send o (.characters "") = (o, none) :=
    Prod.ext (hidle o) (hj.accepts o "")
  exact deliver_cons_of_accepted hsend

end Sink

namespace Writer

theorem send_nothing (w : Writer) :
    (Writer.sink.send w (.characters "")).1 = w := by
  show (if w.inCData then { w with cdata := w.cdata ++ "" }
    else { w with pending := w.pending ++ "" }) = w
  rw [String.append_empty, String.append_empty, ite_self]

/-- Accepting events one after another is delivering them. -/
theorem deliver_eq (es : List Event) (w : Writer) :
    Writer.sink.deliver w es
      = match acceptAll es w with
        | .ok _ w' => (w', none)
        | .error e w' => (w', some e) := by
  induction es generalizing w with
  | nil => rfl
  | cons e es ih =>
    have hall : acceptAll (e :: es) w
        = EStateM.bind (accept e) (fun _ => acceptAll es) w := rfl
    have hsend : Writer.sink.send w e
        = match accept e w with
          | .ok _ w => (w, none)
          | .error e w => (w, some e) := rfl
    rw [hall, EStateM.bind, Sink.deliver, hsend]
    cases accept e w with
    | ok _ w' => exact ih w'
    | error e w' => rfl

/-- The writer is where it would be if the character data came in other
pieces. -/
theorem acceptAll_of_joined {es fs : List Event} {w w' : Writer}
    (hes : joined es = joined fs) (hfs : acceptAll fs w = .ok () w') :
    acceptAll es w = .ok () w' := by
  have hdeliver := deliver_eq fs w
  rw [hfs, ← Writer.joinsText.deliver_joined send_nothing, ← hes,
    Writer.joinsText.deliver_joined send_nothing, deliver_eq] at hdeliver
  cases hok : acceptAll es w with
  | ok _ w₁ =>
    rw [hok] at hdeliver
    cases hdeliver
    rfl
  | error e w₁ =>
    rw [hok] at hdeliver
    cases hdeliver

end Writer

end Stencil.Output
