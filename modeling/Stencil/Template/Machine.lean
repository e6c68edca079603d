/-
The machine that processes a template: the scopes, how many inclusions and
calls are open, the documents loaded, and the output. A run keeps the machine
also when it stops early, so what was written stays written.
-/
import Stencil.Loading.Loader
import Stencil.Output.Event
import Stencil.Template.Reading

namespace Stencil.Template

open Stencil.Expr (Value)
open Markup (Node)
open Output (Event Sink)

/-- What a run does not change: the reserved namespace, the kind of output,
where documents come from, and how many passes a floating loop may make. -/
structure Settings (σ : Type) where
  uri : String
  sink : Sink σ
  source : Loading.Source
  passes : Nat

structure Machine (σ : Type) where
  scopes : Scopes
  nesting : Nat
  cache : Loading.Cache
  output : σ

/-- Why a run stops early: a fault of the template or its data, or a floating
loop that is out of passes. -/
inductive Stop where
  | failed (d : Diagnostic)
  | unfinished

abbrev Run (σ : Type) := EStateM Stop (Machine σ)

variable {σ : Type}

def fail {α : Type} (d : Diagnostic) : Run σ α := throw (.failed d)

/-- Reads with the names in scope. -/
def read {α : Type} (r : Reading α) : Run σ α := fun m =>
  match r m.scopes.environment with
  | .ok a => .ok a m
  | .error d => .error (.failed d) m

-- ================================================================= output

/-- Sends an event to the output. -/
def send (s : Settings σ) (e : Event) : Run σ Unit := fun m =>
  match s.sink.send m.output e with
  | (o, none) => .ok () { m with output := o }
  | (o, some e) =>
    .error (.failed (.general (.output e))) { m with output := o }

def sendAll (s : Settings σ) (es : List Event) : Run σ Unit :=
  es.forM (send s)

/-- Character data as it is, in a section of its own. -/
def cdata (data : String) : List Event :=
  [.startCData, .characters data, .endCData]

-- ================================================================= scopes

/-- Changes the innermost scope on behalf of a node. -/
def onScope (n : Node) (f : Scopes → Except ScopeError Scopes) :
    Run σ Unit := fun m =>
  match f m.scopes with
  | .ok scopes => .ok () { m with scopes := scopes }
  | .error e => .error (.failed (.about n (.scope e))) m

def bindVariable (n : Node) (name : String) (v : Value) : Run σ Unit :=
  onScope n (·.setVariable name v)

/-- Binds a variable if there is a name for it. -/
def bindOptional (n : Node) (name : Option String) (v : Value) : Run σ Unit :=
  match name with
  | some name => bindVariable n name v
  | none => pure ()

/-- Acts on a machine as it is changed by `enter`, and undoes that change by
`leave` however the action ends. -/
def between {α : Type} (enter leave : Machine σ → Machine σ)
    (act : Run σ α) : Run σ α := fun m =>
  match act (enter m) with
  | .ok a m => .ok a (leave m)
  | .error e m => .error e (leave m)

/-- Acts in a scope of its own. -/
def inScope {α : Type} (anchor : Node) (act : Run σ α) : Run σ α :=
  between (fun m => { m with scopes := m.scopes.push anchor })
    (fun m => { m with scopes := m.scopes.pop }) act

/-- Acts inside an inclusion or a call. -/
def nested {α : Type} (act : Run σ α) : Run σ α :=
  between (fun m => { m with nesting := m.nesting + 1 })
    (fun m => { m with nesting := m.nesting - 1 }) act

def setBase (base : Option Url) : Run σ Unit :=
  modify fun m => { m with scopes := m.scopes.setBase base }

-- ================================================================ loading

/-- The document at an address, or why it cannot be had. -/
def load (s : Settings σ) (url : Url) :
    Run σ (Except Loading.Error Markup.Document) := fun m =>
  let (d, cache) := Loading.load s.source m.cache url
  .ok d { m with cache := cache }

end Stencil.Template
