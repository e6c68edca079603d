/-
Diagnostics: why a template could not be processed, at which node, and at
which attribute of it. The reason alone decides kind, message and cause; the
node gives the place in the source and a path through the document.
-/
import Stencil.Loading.Error
import Stencil.Output.Event
import Stencil.Template.Directive
import Stencil.Template.Scope

namespace Stencil.Template

open Markup (Node)

/-- The broad kinds of diagnostics. -/
inductive DiagnosticKind where
  | config
  | expression
  | explicit
  | inclusion
  | type
  | output
deriving DecidableEq, Repr

/-- What was evaluated when an expression failed. -/
inductive Subject where
  | guard (text : String)
  | substitution
  | literal (text : String)
  | value (name text : String)
deriving DecidableEq, Repr

def Subject.message : Subject → String
  | .guard text => s!"Error in \"if\" attribute - {text}"
  | .substitution => "Error in expression substitution"
  | .literal text => s!"Error in expression substitution - {text}"
  | .value name text => s!"Error in {name} - {text}"

inductive Reason where
  | expression (subject : Subject) (e : Expr.Error)
  | scope (e : ScopeError)
  | output (e : Output.Error)
  | misplaced (d : Directive)
  | illegalContent (d : Directive)
  | illegalElement (d : Directive)
  | nameInvalid
  | macroName
  | valueMissing
  | documentAssigned
  | contentAssigned
  | testMissing
  | unknownMacro (name : String)
  | callsTooDeep (name : String)
  | loopName
  | loopIndex
  | loopAttributes
  | loopKind
  | loopBound (name : String)
  | loopCollection (k : Expr.Kind)
  | copySourceMissing
  | copySource
  | copyOption (text : String)
  | interceptTag
  | interceptName
  | doctypeName
  | explicit (text : String)
  | hrefMissing
  | inclusionsTooDeep (href : String)
  | hrefInvalid (href : String) (e : Loading.Error)
  | loading (e : Loading.Error)
  | noRoot
  | source (e : Markup.Error)
  | fileMissing (path : String)
  | whitespaceOption (text : String)
  | outputOption (e : Output.OptionError)
  | declarationOption (text : String)
deriving DecidableEq, Repr

namespace Reason

def kind : Reason → DiagnosticKind
  | .expression .. => .expression
  | .output _ => .output
  | .loopCollection _ => .type
  | .copySource => .type
  | .explicit _ => .explicit
  | .inclusionsTooDeep _ => .inclusion
  | .hrefInvalid .. => .inclusion
  | .loading _ => .inclusion
  | .fileMissing _ => .inclusion
  | _ => .config

def message : Reason → String
  | .expression subject e => s!"{subject.message}: {e.message}"
  | .scope e => e.message
  | .output e => s!"Output error: {e.message}"
  | .misplaced d => s!"Misplaced {d.tag}"
  | .illegalContent d => s!"Illegal content within {d.tag}"
  | .illegalElement d => s!"Illegal element within {d.tag}"
  | .nameInvalid => "Name missing or invalid"
  | .macroName => "Macro name missing or invalid"
  | .valueMissing => "Value missing"
  | .documentAssigned => "Can't handle <set document= >"
  | .contentAssigned => "Illegal content"
  | .testMissing => "Test must be specified"
  | .unknownMacro name => s!"macro name incorrect - {name}"
  | .callsTooDeep name => s!"Macro calls nested too deeply - {name}"
  | .loopName => "Illegal name in <for>"
  | .loopIndex => "Illegal index in <for>"
  | .loopAttributes => "<for> has illegal combination of attributes"
  | .loopKind => "<for> must specify iteration type"
  | .loopBound name => s!"<for> {name} value invalid"
  | .loopCollection k =>
    s!"<for> collection must be capable of iteration - {k.name}"
  | .copySourceMissing => "<copy> element missing"
  | .copySource => "<copy> must specify element"
  | .copyOption text => s!"<copy> option not recognised - {text}"
  | .interceptTag => "<intercept> element missing"
  | .interceptName => "Invalid name on <intercept>"
  | .doctypeName => "Name missing"
  | .explicit text => text
  | .hrefMissing => "HRef missing"
  | .inclusionsTooDeep href => s!"Includes nested too deeply - {href}"
  | .hrefInvalid href _ => s!"Error on include - {href}"
  | .loading e => e.message
  | .noRoot => "Template has no root element"
  | .source e => s!"Template parse error: {e.message}"
  | .fileMissing path => s!"Template not found - {path}"
  | .whitespaceOption text => s!"Illegal whitespace option - {text}"
  | .outputOption e => e.message
  | .declarationOption text => s!"Illegal prefix option - {text}"

/-- The message of the error that the reason goes back to. -/
def cause? : Reason → Option String
  | .expression _ e => some e.message
  | .scope e => some e.message
  | .output e => some e.message
  | .hrefInvalid _ e => some e.message
  | .loading e => some e.message
  | .source e => some e.message
  | _ => none

end Reason

structure Diagnostic where
  reason : Reason
  node : Option Node
  attr : Option String

namespace Diagnostic

def about (n : Node) (reason : Reason) : Diagnostic := ⟨reason, some n, none⟩

def on (n : Node) (attr : String) (reason : Reason) : Diagnostic :=
  ⟨reason, some n, some attr⟩

/-- A diagnostic of no node. -/
def general (reason : Reason) : Diagnostic := ⟨reason, none, none⟩

def kind (d : Diagnostic) : DiagnosticKind := d.reason.kind

def message (d : Diagnostic) : String := d.reason.message

def place? (d : Diagnostic) : Option Markup.Location := d.node.map Node.place

-- ================================================================== paths

/-- The position of a node among its siblings that are like it, counted from
one, if there are others; the top level has no positions. -/
def ordinal (n : Node) (like : Node → Bool) : String :=
  match n.parent? with
  | none => ""
  | some p =>
    let alike := p.children.filter like
    if p.isElement && 1 < alike.length then
      s!"[{(alike.takeWhile fun m => !m.same n).length + 1}]"
    else ""

def isCharacters (n : Node) : Bool := n.characters?.isSome

/-- The step to an element: by its `id`, else by its position among the
siblings with its tag. -/
def elementStep (n : Node) : String :=
  let tag := n.tag?.getD ""
  match (n.attribute? "id").filter fun id => !id.isEmpty with
  | some id => tag ++ "#" ++ id
  | none => tag ++ ordinal n fun m => m.tag? == some tag

/-- The steps to a node and its elements, innermost first. -/
def stepsUp (nodes : List Node) : List String :=
  (nodes.takeWhile Node.isElement).map elementStep

/-- The steps to a node, or to an attribute of it. -/
def steps (n : Node) (attr : Option String) : List String :=
  match attr with
  | some a => (stepsUp n.lineage).reverse ++ ["@" ++ a]
  | none =>
    if isCharacters n then
      (stepsUp n.ancestors).reverse ++ ["text()" ++ ordinal n isCharacters]
    else (stepsUp n.lineage).reverse

/-- The path to the node of a diagnostic. -/
def path? (d : Diagnostic) : Option String :=
  d.node.map fun n => "/ " ++ String.intercalate " / " (steps n d.attr)

end Diagnostic

end Stencil.Template
