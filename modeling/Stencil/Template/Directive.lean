/-
Directives: the elements of the reserved namespace that a template acts on.
All other elements are literal.
-/
import Stencil.Markup.Node

namespace Stencil.Template

open Markup (Node)

inductive Directive where
  | template
  | definition
  | failure
  | doctype
  | inclusion
  | assignment
  | condition
  | switch
  | case
  | loop
  | call
  | param
  | comment
  | copy
  | intercept
deriving DecidableEq, Repr

namespace Directive

/-- The local name of a directive. -/
def name : Directive → String
  | .template => "template"
  | .definition => "macro"
  | .failure => "error"
  | .doctype => "doctype"
  | .inclusion => "include"
  | .assignment => "set"
  | .condition => "if"
  | .switch => "switch"
  | .case => "case"
  | .loop => "for"
  | .call => "call"
  | .param => "param"
  | .comment => "comment"
  | .copy => "copy"
  | .intercept => "intercept"

def all : List Directive :=
  [.template, .definition, .failure, .doctype, .inclusion, .assignment,
   .condition, .switch, .case, .loop, .call, .param, .comment, .copy,
   .intercept]

theorem mem_all (d : Directive) : d ∈ all := by
  cases d <;> decide

def ofName? (name : String) : Option Directive :=
  all.find? fun d => d.name == name

/-- The directive that a node is, when `uri` is the reserved namespace. -/
def ofNode? (uri : String) (n : Node) : Option Directive :=
  n.element?.bind fun e =>
    if e.uri = some uri then ofName? e.name.localPart else none

/-- A directive as messages name it. -/
def tag (d : Directive) : String := "<" ++ d.name ++ ">"

end Directive

end Stencil.Template
