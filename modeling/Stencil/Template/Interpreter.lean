/-
Processing of template elements.

An element whose guard does not hold contributes nothing. A directive does
what it says; any other element is literal, and is written with its contents.
Contents are processed in order, after the macros among them are defined.
The contents of a directive are trimmed: white space and comments at either
end count for nothing.

Processing an element is recursion on its tree. Inclusions and calls leave
the tree, and are open to a limited depth: what they run is given by `Inner`,
which there is none of at the limit.
-/
import Stencil.Template.Copy
import Stencil.Template.Loop

namespace Stencil.Template

open Stencil.Expr (Value isValidName)
open Markup (Node Origin Element)

variable {σ : Type}

/-- What runs inside an inclusion, at the root of the document, or inside a
call, at the macro. -/
structure Inner (σ : Type) where
  execute : Node → Run σ Unit
  expand : Node → Run σ Unit

-- ====================================================== simple directives

/-- Stops with the message of the template. -/
def explicitFailure (n : Node) : Run σ Unit := do
  let text ← read (substituted n "text")
  fail (.about n (.explicit (text.getD "Error element")))

def doctype (s : Settings σ) (n : Node) : Run σ Unit := do
  match ← read (substituted n "name") with
  | none => fail (.on n "name" .doctypeName)
  | some name =>
    let systemId ← read (substituted n "system")
    let publicId ← read (substituted n "public")
    sendAll s [.startDoctype name publicId systemId, .endDoctype]

/-- Binds a variable in the innermost scope. -/
def assignment (n : Node) : Run σ Unit := do
  let name ← read (requiredName n)
  if (n.attribute? "document").any fun d => !d.isEmpty then
    fail (.on n "document" .documentAssigned)
  else if !n.isContentEmpty then fail (.about n .contentAssigned)
  else
    let value ← read (requiredValue n)
    bindVariable n name value

/-- Defines a macro. -/
def define (n : Node) : Run σ Unit :=
  let name := (n.attribute? "name").getD ""
  if isValidName name then onScope n (·.define name n)
  else fail (.on n "name" .macroName)

/-- Defines the macros among some nodes. -/
def defineAll (s : Settings σ) : List Node → Run σ Unit
  | [] => pure ()
  | n :: ns => do
    if Directive.ofNode? s.uri n = some .definition then define n
    defineAll s ns

-- ==================================================== inclusions and calls

/-- An included document is processed in a scope at its root, with its own
address as the base. -/
def includeDocument (s : Settings σ) (inner : Inner σ) (n : Node)
    (href : String) : Run σ Unit := do
  match Loading.resolveHref (← get).scopes.base href with
  | .error e => fail (.on n "href" (.hrefInvalid href e))
  | .ok url =>
    match ← load s url with
    | .error e => fail (.on n "href" (.loading e))
    | .ok document =>
      match document.rootElement? with
      | none => fail (.about n .noRoot)
      | some root =>
        inScope root do
          setBase (some url)
          nested (inner.execute root)

def inclusion (s : Settings σ) (inner : Option (Inner σ)) (n : Node) :
    Run σ Unit := do
  match ← read (substituted n "href"), inner with
  | none, _ => fail (.on n "href" .hrefMissing)
  | some href, none => fail (.on n "href" (.inclusionsTooDeep href))
  | some href, some inner => includeDocument s inner n href

/-- Binds a parameter. -/
def bindParam (n : Node) : Run σ Unit := do
  let name ← read (requiredName n)
  let value ← read (requiredValue n)
  bindVariable n name value

/-- Binds the parameters of a call. -/
def bindParams (s : Settings σ) (n : Node) : List Node → Run σ Unit
  | [] => pure ()
  | child :: rest => do
    if ← read (admitted s.uri n .call .param child) then bindParam child
    bindParams s n rest

/-- A call runs the contents of the macro in a scope with its parameters. -/
def call (s : Settings σ) (inner : Option (Inner σ)) (n : Node) :
    Run σ Unit := do
  let name := (← read (substituted n "name")).getD ""
  match (← get).scopes.defined? name, inner with
  | none, _ => fail (.on n "name" (.unknownMacro name))
  | some _, none => fail (.on n "name" (.callsTooDeep name))
  | some body, some inner =>
    inScope n do
      bindParams s n n.children
      nested (inner.expand body)

-- ================================================================ contents

/-- Which ends of a text are trimmed. -/
def trimEnds (front back : Bool) (data : String) : String :=
  let s := data.toList
  let s := if front then Text.dropBlank s else s
  String.ofList (if back then Text.dropBlankEnd s else s)

/-- Character data with its expressions replaced; no data is no event. -/
def text (s : Settings σ) (n : Node) (data : String) : Run σ Unit := do
  if data.isEmpty then pure ()
  else
    let text ← read (literalText n data)
    send s (.characters text)

/-- One of the contents; `process` is the run that an element is. -/
def item (s : Settings σ) (n : Node) (front back : Bool)
    (process : Run σ Unit) : Run σ Unit :=
  match n.content with
  | .element _ =>
    if Directive.ofNode? s.uri n = some .definition then pure () else process
  | .text data => text s n (trimEnds front back data)
  | .cdata data => sendAll s (cdata data)
  | _ => pure ()

/-- The case `child` of the switch `n` applies. -/
def caseApplies (s : Settings σ) (n child : Node) : Reading Bool := do
  if ← admitted s.uri n .switch .case child then
    match ← substituted child "test" with
    | none => return true
    | some test => truth child test
  else return false

-- ================================================================ elements

/-- The runs that lie in an element: its contents, trimmed or not, its cases
if it is a switch, and its children with their contents if it is a copy. -/
structure Below (σ : Type) where
  contents : Bool → Run σ Unit
  cases : Run σ Unit
  replacements : List (Node × Run σ Unit)

/-- A condition. -/
def condition (n : Node) (contents : Run σ Unit) : Run σ Unit := do
  match ← read (substituted n "test") with
  | none => fail (.on n "test" .testMissing)
  | some test =>
    if ← read (truth n test) then inScope n contents else pure ()

/-- An element is written with its contents; there is nothing else to a node
that is none. -/
def literal (s : Settings σ) (n : Node) (contents : Run σ Unit) :
    Run σ Unit :=
  match n.element? with
  | none => pure ()
  | some e => do
    let attributes ← read (literalAttributes s.uri n e.attributes)
    send s (.start (.ofElement e) attributes)
    contents
    send s (.stop (.ofElement e))

/-- Does what a directive says. Some have no place by themselves, and some
do nothing. -/
def obey (s : Settings σ) (inner : Option (Inner σ)) (n : Node)
    (below : Below σ) : Directive → Run σ Unit
  | .failure => explicitFailure n
  | .doctype => doctype s n
  | .inclusion => inclusion s inner n
  | .assignment => assignment n
  | .condition => condition n (below.contents true)
  | .switch => below.cases
  | .loop => loop s n (below.contents true)
  | .call => call s inner n
  | .comment => pure ()
  | .copy => copy s n below.replacements
  | .definition => pure ()
  | d => fail (.about n (.misplaced d))

/-- Processes an element, given the runs that lie in it. -/
def perform (s : Settings σ) (inner : Option (Inner σ)) (n : Node)
    (below : Below σ) : Run σ Unit := do
  if ← read (included s.uri n) then
    match Directive.ofNode? s.uri n with
    | some d => obey s inner n below d
    | none => literal s n (below.contents false)

mutual

/-- Processes an element. -/
def element (s : Settings σ) (inner : Option (Inner σ)) (origin : Origin)
    (trail : List Markup.Tree) : Markup.Tree → Run σ Unit
  | .node label ts =>
    let n : Node := ⟨origin, .node label ts, trail⟩
    let inside := Markup.Tree.node label ts :: trail
    perform s inner n
      { contents := fun trim => do
          defineAll s n.children
          items s inner origin inside trim trim ts
        cases := cases s inner origin inside n ts
        replacements := replacements s inner origin inside ts }
termination_by structural t => t

/-- Processes contents from the first that is not trimmed to the last. `trim`
trims the end, `front` the beginning. -/
def items (s : Settings σ) (inner : Option (Inner σ)) (origin : Origin)
    (trail : List Markup.Tree) (trim front : Bool) :
    List Markup.Tree → Run σ Unit
  | [] => pure ()
  | t :: ts =>
    let ends := trim && ts.all Markup.Tree.isInsignificant
    if front && t.isInsignificant then
      items s inner origin trail trim true ts
    else if ends && t.isInsignificant then pure ()
    else do
      item s ⟨origin, t, trail⟩ front ends (element s inner origin trail t)
      items s inner origin trail trim false ts
termination_by structural ts => ts

/-- Processes the trimmed contents of an element. -/
def body (s : Settings σ) (inner : Option (Inner σ)) (origin : Origin)
    (trail : List Markup.Tree) : Markup.Tree → Run σ Unit
  | .node label ts => do
    let n : Node := ⟨origin, .node label ts, trail⟩
    defineAll s n.children
    items s inner origin (.node label ts :: trail) true true ts
termination_by structural t => t

/-- Processes the first case of the switch `n` that applies. -/
def cases (s : Settings σ) (inner : Option (Inner σ)) (origin : Origin)
    (trail : List Markup.Tree) (n : Node) : List Markup.Tree → Run σ Unit
  | [] => pure ()
  | t :: ts => do
    let child : Node := ⟨origin, t, trail⟩
    if ← read (caseApplies s n child) then
      inScope child (body s inner origin trail t)
    else cases s inner origin trail n ts
termination_by structural ts => ts

/-- The children of a copy element, each with the run that its contents
are. -/
def replacements (s : Settings σ) (inner : Option (Inner σ))
    (origin : Origin) (trail : List Markup.Tree) :
    List Markup.Tree → List (Node × Run σ Unit)
  | [] => []
  | t :: ts =>
    (⟨origin, t, trail⟩, body s inner origin trail t)
      :: replacements s inner origin trail ts
termination_by structural ts => ts

end

-- ============================================================== whole runs

/-- Processes the contents of an element. -/
def contents (s : Settings σ) (inner : Option (Inner σ)) (trim : Bool)
    (n : Node) : Run σ Unit := do
  defineAll s n.children
  items s inner n.origin (n.tree :: n.trail) trim trim n.tree.children

/-- Processes a root: the contents of a template element, or any other
element as it is. -/
def execute (s : Settings σ) (inner : Option (Inner σ)) (n : Node) :
    Run σ Unit :=
  if Directive.ofNode? s.uri n = some .template then contents s inner false n
  else element s inner n.origin n.trail n.tree

/-- How many inclusions and calls may be open. -/
def nestingLimit : Nat := 100

/-- What runs inside when as many inclusions and calls as said may still be
opened. -/
def inner? (s : Settings σ) : Nat → Option (Inner σ)
  | 0 => none
  | room + 1 =>
    some
      { execute := execute s (inner? s room)
        expand := contents s (inner? s room) true }

/-- Processes the root of a template. -/
def process (s : Settings σ) (n : Node) : Run σ Unit :=
  execute s (inner? s nestingLimit) n

end Stencil.Template
