/-
The events of an output document, the ways a destination can refuse them, and
the two options that choose how they are written.
-/
import Stencil.Text.Search

namespace Stencil.Output

/-- The name of an output element: `qualified` is what is written, and its
local part decides how HTML treats the element. -/
structure ElementName where
  uri : Option String
  localPart : String
  qualified : String
deriving DecidableEq, Repr

inductive Event where
  | startDocument
  | endDocument
  | start (name : ElementName) (attributes : List (String × String))
  | stop (name : ElementName)
  | characters (s : String)
  | startCData
  | endCData
  | startDoctype (name : String) (publicId systemId : Option String)
  | endDoctype
deriving DecidableEq, Repr

/-- Why an event was not written. -/
inductive Error where
  | io (reason : String)
  | unbalancedEnd (expected found : String)
  | noOpenElement (name : String)
  | unclosedElements (count : Nat)
deriving DecidableEq, Repr

def Error.message : Error → String
  | .io reason => s!"I/O error: {reason}"
  | .unbalancedEnd expected found =>
    s!"Unbalanced end element: expected </{expected}>, found </{found}>"
  | .noOpenElement name => s!"End element </{name}> with no open element"
  | .unclosedElements count =>
    s!"Document ended with {count} unclosed element(s)"

-- =============================================================== options

/-- What happens to white space: dropped where it stands alone, kept, or
dropped and replaced by indentation. -/
inductive Whitespace where
  | none
  | all
  | indent
deriving DecidableEq, Repr, Inhabited

def Whitespace.name : Whitespace → String
  | .none => "none"
  | .all => "all"
  | .indent => "indent"

inductive Dialect where
  | xml
  | html
deriving DecidableEq, Repr, Inhabited

def Dialect.name : Dialect → String
  | .xml => "xml"
  | .html => "html"

/-- An option with a value it does not have. -/
inductive OptionError where
  | whitespace (text : String)
  | output (text : String)
deriving DecidableEq, Repr

def OptionError.message : OptionError → String
  | .whitespace text => s!"Invalid whitespace option - {text}"
  | .output text => s!"Illegal output: {text}"

/-- The value of a list whose name the text is, in any case. -/
def named? {α : Type} (name : α → String) (values : List α) (text : String) :
    Option α :=
  values.find? fun v => Text.sameIgnoringCase text.toList (name v).toList

def Whitespace.read (text : String) : Except OptionError Whitespace :=
  match named? name [.none, .all, .indent] text with
  | some w => .ok w
  | Option.none => .error (.whitespace text)

def Dialect.read (text : String) : Except OptionError Dialect :=
  match named? name [.xml, .html] text with
  | some d => .ok d
  | none => .error (.output text)

-- ================================================================= sinks

/-- Where events go. A sink that refuses an event may have changed. -/
structure Sink (σ : Type) where
  send : σ → Event → σ × Option Error

end Stencil.Output
