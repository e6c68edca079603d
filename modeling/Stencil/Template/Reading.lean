/-
What a template element says: its guard, and its attributes with the
expressions in them replaced. Reading looks at the names in scope and changes
nothing.
-/
import Stencil.Expr.Identifier
import Stencil.Expr.Substitution
import Stencil.Template.Diagnostic

namespace Stencil.Template

open Stencil.Expr (Value Environment isValidName)
open Markup (Node Attribute)

/-- What is read where names have a meaning, or why it cannot be. -/
abbrev Reading := ReaderT Environment (Except Diagnostic)

/-- Something evaluated on behalf of a node, or of an attribute of it. -/
def evaluating {α : Type} (n : Node) (attr : Option String)
    (subject : Subject) (f : Environment → Except Expr.Error α) : Reading α :=
  fun env => (f env).mapError fun e => ⟨.expression subject e, some n, attr⟩

-- ============================================================= attributes

/-- An attribute with its expressions replaced. One that is missing and one
that comes out empty are none. -/
def substituted (n : Node) (name : String) : Reading (Option String) :=
  match n.attribute? name with
  | none => pure none
  | some raw => do
    let text ← evaluating n (some name) .substitution (Expr.substitute · raw)
    return if text.isEmpty then none else some text

/-- An attribute that has to be a valid name if it is there. -/
def identifier (n : Node) (name : String) (reason : Reason) :
    Reading (Option String) := do
  match ← substituted n name with
  | none => return none
  | some text =>
    if isValidName text then return some text
    else throw (.on n name reason)

/-- The `name` attribute, which has to be a valid name. -/
def requiredName (n : Node) : Reading String := do
  match ← substituted n "name" with
  | none => throw (.on n "name" .nameInvalid)
  | some text =>
    if isValidName text then return text
    else throw (.on n "name" .nameInvalid)

/-- The value of an attribute's text as an expression. -/
def valueOf (n : Node) (name text : String) : Reading Value :=
  evaluating n (some name) (.value name text) (Expr.evaluate · text)

/-- The value of the `value` attribute, which has to be there. -/
def requiredValue (n : Node) : Reading Value := do
  match ← substituted n "value" with
  | none => throw (.on n "value" .valueMissing)
  | some text => valueOf n "value" text

/-- The truth of the text of a `test` attribute. -/
def truth (n : Node) (text : String) : Reading Bool := do
  let v ← valueOf n "test" text
  evaluating n (some "test") (.value "test" text) fun _ => v.asBool

-- ================================================================= guards

/-- The truth of a guard; an empty one holds. -/
def guardHolds (raw : String) (env : Environment) : Except Expr.Error Bool := do
  let text ← Expr.substitute env raw
  if text.isEmpty then return true
  else (← Expr.evaluate env text).asBool

/-- An element counts unless its reserved `if` attribute says otherwise. -/
def included (uri : String) (n : Node) : Reading Bool :=
  match n.attributeIn? uri "if" with
  | none => pure true
  | some a =>
    evaluating n (some a.name.text) (.guard a.value) (guardHolds a.value)

/-- Directives that hold only directives of one kind pass over comments and
white space, and over what is not included; anything else in them has no
place there. -/
def admitted (uri : String) (n : Node) (within kind : Directive)
    (child : Node) : Reading Bool := do
  if !child.isElement then
    if child.isInsignificant then return false
    else throw (.about n (.illegalContent within))
  else if !(← included uri child) then return false
  else if Directive.ofNode? uri child = some kind then return true
  else throw (.about child (.illegalElement within))

-- =============================================================== literals

/-- Attributes that belong to the template and not to its output: those of
the reserved namespace, and declarations of it. -/
def isReserved (uri : String) (a : Attribute) : Bool :=
  if a.isDeclaration then a.value == uri else a.uri == some uri

/-- The value of one attribute of a literal element. -/
def literalValue (n : Node) (a : Attribute) : Reading String :=
  evaluating n (some a.name.text) (.literal a.value) (Expr.substitute · a.value)

/-- The attributes that a literal element is written with: what comes out
empty is left out. -/
def literalAttributes (uri : String) (n : Node) :
    List Attribute → Reading (List (String × String))
  | [] => return []
  | a :: rest => do
    if isReserved uri a then literalAttributes uri n rest
    else
      let value ← literalValue n a
      let others ← literalAttributes uri n rest
      return if value.isEmpty then others else (a.name.text, value) :: others

/-- The text that a node of character data is written as. -/
def literalText (n : Node) (data : String) : Reading String :=
  evaluating n none .substitution (Expr.substitute · data)

end Stencil.Template
