/-
Options of processing, and the attributes of a template's root that override
them for one run.
-/
import Stencil.Template.Reading

namespace Stencil.Template

open Markup (Node)
open Output (Whitespace Dialect)

/-- The reserved namespace, how white space is written, as what, and whether
an XML declaration comes first. -/
structure Options where
  uri : String
  whitespace : Whitespace
  dialect : Dialect
  declaration : Bool
deriving DecidableEq, Repr

/-- The namespace of directives unless another one is set. -/
def standardUri : String := "http://pwall.net/xml/xt/1.0"

def Options.standard : Options := ⟨standardUri, .all, .xml, false⟩

namespace Options

/-- The texts that ask for an XML declaration, and those that ask for none,
in any case. -/
def declaration? (text : String) : Option Bool :=
  if ["true", "yes"].any fun w => Text.sameIgnoringCase text.toList w.toList
  then some true
  else if ["false", "no"].any fun w =>
    Text.sameIgnoringCase text.toList w.toList
  then some false
  else none

/-- The name of the attribute that overrides an option: that name itself on a
template element, else the one with that name in the reserved namespace. -/
def overrider? (uri : String) (n : Node) (option : String) : Option String :=
  if Directive.ofNode? uri n = some .template then some option
  else (n.attributeIn? uri option).map (·.name.text)

/-- Overrides an option by what its attribute says, if it says anything. -/
def override {α : Type} (uri : String) (n : Node) (option : String)
    (default : α) (read : String → Except Reason α) : Reading α := do
  match overrider? uri n option with
  | none => return default
  | some name =>
    match ← substituted n name with
    | none => return default
    | some text =>
      match read text with
      | .ok a => return a
      | .error reason => throw (.on n name reason)

def readWhitespace (text : String) : Except Reason Whitespace :=
  (Whitespace.read text).mapError fun _ => .whitespaceOption text

def readDialect (text : String) : Except Reason Dialect :=
  (Dialect.read text).mapError .outputOption

def readDeclaration (text : String) : Except Reason Bool :=
  match declaration? text with
  | some b => .ok b
  | none => .error (.declarationOption text)

/-- The output attribute says something. -/
def overridesDialect (uri : String) (n : Node) : Reading Bool := do
  match overrider? uri n "output" with
  | none => return false
  | some name => return (← substituted n name).isSome

/-- The options of one run over the template with a root. White space is a
matter of template elements alone, and a declaration one of a root that asks
for XML. -/
def effective (o : Options) (n : Node) : Reading Options := do
  let whitespace ←
    if Directive.ofNode? o.uri n = some .template then
      override o.uri n "whitespace" o.whitespace readWhitespace
    else pure o.whitespace
  let dialect ← override o.uri n "output" o.dialect readDialect
  let asked ← overridesDialect o.uri n
  let declaration ←
    if asked && dialect == .xml then
      override o.uri n "prefix" o.declaration readDeclaration
    else pure o.declaration
  return { o with whitespace, dialect, declaration }

end Options

end Stencil.Template
