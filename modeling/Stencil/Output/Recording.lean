/-
A sink that keeps every event. Character data directly behind character data
joins it.
-/
import Stencil.Output.Event

namespace Stencil.Output

/-- The events kept so far, newest first. -/
structure Recording where
  newest : List Event
deriving DecidableEq, Repr

namespace Recording

def empty : Recording := ⟨[]⟩

def push (r : Recording) (e : Event) : Recording :=
  match e, r.newest with
  | .characters s, .characters t :: rest => ⟨.characters (t ++ s) :: rest⟩
  | e, es => ⟨e :: es⟩

/-- The events kept, in order. -/
def events (r : Recording) : List Event := r.newest.reverse

/-- The names of all elements started, in order. -/
def names (r : Recording) : List String :=
  r.events.filterMap fun
    | .start name _ => some name.qualified
    | _ => none

/-- All character data, in order. -/
def text (r : Recording) : String :=
  String.join <| r.events.filterMap fun
    | .characters s => some s
    | _ => none

def sink : Sink Recording where
  send r e := (r.push e, none)

end Recording

end Stencil.Output
