/-
Scopes: what names mean at a place in a template. Each scope binds variables,
macros and function libraries, is anchored at a node, and knows the address
that references are relative to. Scopes form a stack, and the innermost one
that binds a name decides; the outermost is never left.

Qualifiers are not looked up in scopes but in the document around the
anchor.
-/
import Stencil.Expr.Eval
import Stencil.Url.Basic

namespace Stencil.Template

open Stencil.Expr (Value Library Environment enter)
open Markup (Node)

inductive ScopeError where
  | constant (name : String)
  | duplicateMacro (name : String)
deriving DecidableEq, Repr

def ScopeError.message : ScopeError → String
  | .constant name => s!"Can't assign to constant - {name}"
  | .duplicateMacro name => s!"Duplicate macro - {name}"

structure Binding where
  value : Value
  constant : Bool

structure Scope where
  anchor : Node
  names : List (String × Binding)
  macros : List (String × Node)
  libraries : List (String × Library)
  base : Option Url

namespace Scope

/-- A scope that binds nothing. -/
def fresh (anchor : Node) (base : Option Url) : Scope :=
  ⟨anchor, [], [], [], base⟩

/-- The scope holds a constant of this name. -/
def isConstant (s : Scope) (name : String) : Bool :=
  (s.names.lookup name).any (·.constant)

/-- Binds a name, unless it is bound to a constant in this very scope. -/
def bind (s : Scope) (name : String) (b : Binding) : Except ScopeError Scope :=
  if s.isConstant name then .error (.constant name)
  else .ok { s with names := enter s.names name b }

def setVariable (s : Scope) (name : String) (v : Value) :
    Except ScopeError Scope :=
  s.bind name ⟨v, false⟩

def setConstant (s : Scope) (name : String) (v : Value) :
    Except ScopeError Scope :=
  s.bind name ⟨v, true⟩

def value? (s : Scope) (name : String) : Option Value :=
  (s.names.lookup name).map (·.value)

/-- Defines a macro, once. -/
def define (s : Scope) (name : String) (element : Node) :
    Except ScopeError Scope :=
  match s.macros.lookup name with
  | some _ => .error (.duplicateMacro name)
  | none => .ok { s with macros := (name, element) :: s.macros }

def addLibrary (s : Scope) (uri : String) (library : Library) : Scope :=
  { s with libraries := enter s.libraries uri library }

end Scope

-- ================================================================ stacks

/-- The innermost scope and those around it, nearest first. -/
structure Scopes where
  current : Scope
  outer : List Scope

namespace Scopes

def single (s : Scope) : Scopes := ⟨s, []⟩

def depth (s : Scopes) : Nat := s.outer.length + 1

/-- All scopes, innermost first. -/
def all (s : Scopes) : List Scope := s.current :: s.outer

/-- Opens a scope, which takes over the base. -/
def push (s : Scopes) (anchor : Node) : Scopes :=
  ⟨.fresh anchor s.current.base, s.all⟩

/-- Leaves the innermost scope, but not the outermost. -/
def pop (s : Scopes) : Scopes :=
  match s.outer with
  | [] => s
  | t :: ts => ⟨t, ts⟩

/-- Changes the innermost scope. -/
def onCurrent (s : Scopes) (f : Scope → Except ScopeError Scope) :
    Except ScopeError Scopes :=
  (f s.current).map fun t => { s with current := t }

def setVariable (s : Scopes) (name : String) (v : Value) :
    Except ScopeError Scopes :=
  s.onCurrent (·.setVariable name v)

def setConstant (s : Scopes) (name : String) (v : Value) :
    Except ScopeError Scopes :=
  s.onCurrent (·.setConstant name v)

def define (s : Scopes) (name : String) (element : Node) :
    Except ScopeError Scopes :=
  s.onCurrent (·.define name element)

def addLibrary (s : Scopes) (uri : String) (library : Library) : Scopes :=
  { s with current := s.current.addLibrary uri library }

def base (s : Scopes) : Option Url := s.current.base

def setBase (s : Scopes) (base : Option Url) : Scopes :=
  { s with current := { s.current with base := base } }

-- ================================================================ lookup

def value? (s : Scopes) (name : String) : Option Value :=
  s.all.findSome? (·.value? name)

def defined? (s : Scopes) (name : String) : Option Node :=
  s.all.findSome? (·.macros.lookup name)

def library? (s : Scopes) (uri : String) : Option Library :=
  s.all.findSome? (·.libraries.lookup uri)

/-- The URI of a qualifier at the anchor; an empty one is none. -/
def uri? (s : Scopes) (qualifier : String) : Option String :=
  (s.current.anchor.resolve? (some qualifier)).filter fun u => !u.isEmpty

/-- What the names in an expression mean here. -/
def environment (s : Scopes) : Environment where
  value? := s.value?
  uri? := s.uri?
  library? := s.library?

theorem pop_push (s : Scopes) (n : Node) : (s.push n).pop = s := by
  cases s
  rfl

end Scopes

end Stencil.Template
