/-
A template ready to be processed: its root, the names bound at its outermost
scope, its options, and where included documents come from. Processing leaves
the processor as it is, but for the documents that it now has.
-/
import Stencil.Output.Recording
import Stencil.Output.Writer
import Stencil.Template.Interpreter
import Stencil.Template.Options

namespace Stencil.Template

open Stencil.Expr (Value Library)
open Markup (Node Document)
open Output (Sink Event Writer Recording)

structure Processor where
  root : Node
  scope : Scope
  options : Options
  source : Loading.Source
  cache : Loading.Cache

namespace Processor

-- =========================================================== construction

/-- A processor of a document; references are relative to `base`. -/
def ofDocument (source : Loading.Source) (cache : Loading.Cache)
    (base : Option Url) (d : Document) : Except Diagnostic Processor :=
  match d.rootElement? with
  | none => .error (.general .noRoot)
  | some root => .ok ⟨root, .fresh root base, .standard, source, cache⟩

/-- A processor of a template given as a text of its own number, which has no
base. -/
def parse (source : Loading.Source) (number : Nat) (text : String) :
    Except Diagnostic Processor :=
  match Document.parse (.given number) text with
  | .error e => .error (.general (.source e))
  | .ok d => ofDocument source .empty none d

/-- A processor of the template at an address. -/
def load (source : Loading.Source) (cache : Loading.Cache) (url : Url) :
    Except Diagnostic Processor :=
  match Loading.load source cache url with
  | (.error e, _) => .error (.general (.loading e))
  | (.ok d, cache) => ofDocument source cache (some url) d

/-- A processor of the template in a file, which may be given by any path
that leads to it. -/
def ofFile (files : Loading.Files) (path : List String) :
    Except Diagnostic Processor :=
  match files.canonical? path with
  | none =>
    .error (.general (.fileMissing ("/" ++ String.intercalate "/" path)))
  | some path => load (.standard files) .empty (Url.ofFilePath path)

def url? (p : Processor) : Option Url := p.scope.base

-- =============================================================== bindings

/-- Changes the outermost scope. -/
def onScope (p : Processor) (f : Scope → Except ScopeError Scope) :
    Except Diagnostic Processor :=
  match f p.scope with
  | .ok scope => .ok { p with scope := scope }
  | .error e => .error (.general (.scope e))

def setVariable (p : Processor) (name : String) (v : Value) :
    Except Diagnostic Processor :=
  p.onScope (·.setVariable name v)

def setConstant (p : Processor) (name : String) (v : Value) :
    Except Diagnostic Processor :=
  p.onScope (·.setConstant name v)

def addLibrary (p : Processor) (uri : String) (library : Library) :
    Processor :=
  { p with scope := p.scope.addLibrary uri library }

-- ============================================================= processing

/-- How many passes a floating loop may make. -/
def passLimit : Nat := Nat.pow 2 40

variable {σ : Type}

def settings (p : Processor) (sink : Sink σ) : Settings σ :=
  ⟨p.options.uri, sink, p.source, passLimit⟩

/-- The machine at the start of a run. -/
def machine (p : Processor) (output : σ) : Machine σ :=
  ⟨.single p.scope, 0, p.cache, output⟩

/-- The whole document. -/
def document (p : Processor) (sink : Sink σ) : Run σ Unit := do
  let s := p.settings sink
  send s .startDocument
  process s p.root
  send s .endDocument

/-- How a run ended, the output it left, and the documents it had. -/
structure Ending (σ : Type) where
  stop : Option Stop
  output : σ
  cache : Loading.Cache

/-- Processes into a sink. -/
def runInto (p : Processor) (sink : Sink σ) (output : σ) : Ending σ :=
  match p.document sink (p.machine output) with
  | .ok _ m => ⟨none, m.output, m.cache⟩
  | .error stop m => ⟨some stop, m.output, m.cache⟩

/-- Processes to text as some options say; `room` is how many writes the
destination takes, `none` for any number. -/
def write (p : Processor) (o : Options) (room : Option Nat) : Ending Writer :=
  p.runInto Writer.sink
    (.fresh o.dialect o.whitespace o.declaration room)

/-- Processes to XML by the processor's options. -/
def writeXml (p : Processor) (room : Option Nat) : Ending Writer :=
  p.write { p.options with dialect := .xml } room

/-- Processes to HTML by the processor's options. -/
def writeHtml (p : Processor) (room : Option Nat) : Ending Writer :=
  p.write { p.options with dialect := .html } room

/-- The options of a run, as the root overrides them. -/
def effectiveOptions (p : Processor) : Except Diagnostic Options :=
  p.options.effective p.root (Scopes.single p.scope).environment

/-- Processes to text as the root of the template asks. -/
def render (p : Processor) (room : Option Nat) : Ending Writer :=
  match p.effectiveOptions with
  | .ok o => p.write o room
  | .error d =>
    ⟨some (.failed d),
      .fresh p.options.dialect p.options.whitespace false room, p.cache⟩

/-- The text that the template renders to. -/
def text (p : Processor) : Except Stop String :=
  let ending := p.render none
  match ending.stop with
  | none => .ok ending.output.text
  | some stop => .error stop

end Processor

end Stencil.Template
