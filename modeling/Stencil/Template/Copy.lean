/-
Copies of elements into the output, as they are: nothing in a copy is an
expression or a directive. Where an element has the tag of an intercept, the
intercept's replacement stands for it.
-/
import Stencil.Output.Fragment
import Stencil.Template.Machine

namespace Stencil.Template

open Stencil.Expr (Value)
open Markup (Node Origin Element)

variable {σ : Type}

/-- Elements of a tag are replaced: the replacement is run in a scope at
`node`, where the captured name stands for the element. -/
structure Intercept (σ : Type) where
  tag : String
  node : Node
  capture : Option String
  replacement : Run σ Unit

/-- What an intercept element says. -/
def interceptSpec (n : Node) : Reading (String × Option String) := do
  match ← substituted n "element" with
  | none => throw (.on n "element" .interceptTag)
  | some tag => return (tag, ← identifier n "name" .interceptName)

/-- The intercepts that a copy element holds; each child comes with the run
that its contents are. -/
def intercepts (uri : String) (n : Node) :
    List (Node × Run σ Unit) → Reading (List (Intercept σ))
  | [] => return []
  | (child, replacement) :: rest => do
    if ← admitted uri n .copy .intercept child then
      let (tag, capture) ← interceptSpec child
      let others ← intercepts uri n rest
      return ⟨tag, child, capture, replacement⟩ :: others
    else intercepts uri n rest

/-- The attributes that a copy is written with. -/
def copiedAttributes (uri : String) (e : Element) : List (String × String) :=
  (e.attributes.filter fun a => !isReserved uri a).map fun a =>
    (a.name.text, a.value)

def Intercept.run (i : Intercept σ) (source : Node) : Run σ Unit :=
  inScope i.node do
    bindOptional i.node i.capture (.element source)
    i.replacement

mutual

/-- A node of the source: an element with its contents, or character data. -/
def copyTree (s : Settings σ) (is : List (Intercept σ)) (origin : Origin)
    (trail : List Markup.Tree) : Markup.Tree → Run σ Unit
  | .node label ts =>
    let n : Node := ⟨origin, .node label ts, trail⟩
    match label.content with
    | .element e =>
      match is.find? fun i => i.tag == e.name.text with
      | some i => i.run n
      | none => do
        send s (.start (.ofElement e) (copiedAttributes s.uri e))
        inScope n (copyTrees s is origin (.node label ts :: trail) ts)
        send s (.stop (.ofElement e))
    | .cdata data => sendAll s (cdata data)
    | .text data => send s (.characters data)
    | _ => pure ()

def copyTrees (s : Settings σ) (is : List (Intercept σ)) (origin : Origin)
    (trail : List Markup.Tree) : List Markup.Tree → Run σ Unit
  | [] => pure ()
  | t :: ts => do
    copyTree s is origin trail t
    copyTrees s is origin trail ts

end

/-- A copy of an element, or of its contents alone. -/
def copyFrom (s : Settings σ) (is : List (Intercept σ)) (whole : Bool)
    (source : Node) : Run σ Unit :=
  if whole then copyTree s is source.origin source.trail source.tree
  else
    inScope source
      (copyTrees s is source.origin (source.tree :: source.trail)
        source.tree.children)

/-- The element that is to be copied. -/
def copySource (n : Node) (text : String) : Reading Node := do
  match ← valueOf n "element" text with
  | .element source =>
    if source.isElement then return source
    else throw (.on n "element" .copySource)
  | _ => throw (.on n "element" .copySource)

/-- The element itself is copied, not only its contents. -/
def copiesWhole (n : Node) : Reading Bool := do
  match ← substituted n "option" with
  | none => return false
  | some "include" => return true
  | some other => throw (.on n "option" (.copyOption other))

/-- A copy element, whose children come with the runs of their contents. -/
def copy (s : Settings σ) (n : Node) (children : List (Node × Run σ Unit)) :
    Run σ Unit := do
  match ← read (substituted n "element") with
  | none => fail (.on n "element" .copySourceMissing)
  | some text =>
    inScope n do
      let source ← read (copySource n text)
      let whole ← read (copiesWhole n)
      let is ← read (intercepts s.uri n children)
      copyFrom s is whole source

end Stencil.Template
