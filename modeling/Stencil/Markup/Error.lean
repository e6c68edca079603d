/-
Why a source is not a document. A fault of the markup itself is told apart
from a fault of the document it spells, and each has one wording.
-/
import Stencil.Markup.Location

namespace Stencil.Markup

-- ====================================================== faults of markup

/-- Markup that has to be closed. -/
inductive Construct where
  | instruction
  | declaration
  | comment
  | doctype
  | cdata
  | tag
deriving DecidableEq, Repr

/-- What a construct is called, and what would have closed it. -/
def Construct.name : Construct → String × String
  | .instruction => ("processing instruction", "?>")
  | .declaration => ("XML declaration", "?>")
  | .comment => ("comment", "-->")
  | .doctype => ("DOCTYPE", ">")
  | .cdata => ("CDATA", "]]>")
  | .tag => ("tag", ">")

/-- Why the text between `&#` and `;` is no character. -/
inductive ReferenceFault where
  | sign
  | empty
  | digit
  | tooLarge
  | zero
  | notACharacter (code : Nat)
deriving DecidableEq, Repr

def ReferenceFault.message : ReferenceFault → String
  | .sign => "unexpected number sign"
  | .empty => "cannot parse integer from empty string"
  | .digit => "invalid digit found in string"
  | .tooLarge => "number too large to fit in target type"
  | .zero => "0x0 character is not permitted in XML"
  | .notACharacter code => s!"`{code}` is not a valid codepoint"

/-- A fault of the markup. Positions are byte offsets: of attributes within
their tag, of entities within the raw value. -/
inductive Fault where
  | unknownMarkup
  | notClosed (what : Construct)
  | quoteNotClosed (quote : Char)
  | doctypeWithoutName
  | referenceNotClosed
  | closesNothing (name : String)
  | closesOther (expected found : String)
  | keyWithoutEquals (pos : Nat)
  | valueMissing (pos : Nat)
  | valueUnquoted (pos : Nat)
  | valueNotClosed (pos : Nat) (quote : Char)
  | duplicate (pos earlier : Nat)
  | unknownEntity (first last : Nat) (name : String)
  | entityNotClosed (first last : Nat)
  | reference (fault : ReferenceFault)
  | textOutsideRoot
  | cdataOutsideRoot
deriving DecidableEq, Repr

def notFound (closer : String) : String :=
  s!"`{closer}` not found before end of input"

def Fault.message : Fault → String
  | .unknownMarkup => "syntax error: unknown or missed symbol in markup"
  | .notClosed what =>
    s!"syntax error: {what.name.1} not closed: {notFound what.name.2}"
  | .quoteNotClosed quote =>
    s!"syntax error: attribute value not closed: {notFound quote.toString}"
  | .doctypeWithoutName =>
    "ill-formed document: `<!DOCTYPE>` declaration does not contain "
      ++ "a name of a document type"
  | .referenceNotClosed =>
    "ill-formed document: entity or character reference not closed: "
      ++ notFound ";"
  | .closesNothing name =>
    s!"ill-formed document: close tag `</{name}>` does not match any open tag"
  | .closesOther expected found =>
    s!"ill-formed document: expected `</{expected}>`, "
      ++ s!"but `</{found}>` was found"
  | .keyWithoutEquals pos =>
    s!"position {pos}: attribute key must be directly followed by `=` or space"
  | .valueMissing pos =>
    s!"position {pos}: `=` must be followed by an attribute value"
  | .valueUnquoted pos =>
    s!"position {pos}: attribute value must be enclosed in `\"` or `'`"
  | .valueNotClosed pos quote =>
    s!"position {pos}: missing closing quote `{quote}` in attribute value"
  | .duplicate pos earlier =>
    s!"position {pos}: duplicated attribute, "
      ++ s!"previous declaration at position {earlier}"
  | .unknownEntity first last name =>
    s!"at {first}..{last}: unrecognized entity `{name}`"
  | .entityNotClosed first last =>
    s!"Error while escaping character at range {first}..{last}: "
      ++ "Cannot find ';' after '&'"
  | .reference fault => "invalid character reference: " ++ fault.message
  | .textOutsideRoot => "Character data outside the root element"
  | .cdataOutsideRoot => "CDATA section outside the root element"

-- =================================================== faults of documents

/-- Why a source is no document. -/
inductive Error where
  | markup (fault : Fault) (place : Location)
  | unboundPrefix (qualifier : String) (place : Location)
  | unknownEntity (name : String) (place : Location)
  | unclosedElement (tag : String)
  | noRoot
  | manyRoots
deriving DecidableEq, Repr

def Error.message : Error → String
  | .markup fault place =>
    s!"XML syntax error at {place.text}: {fault.message}"
  | .unboundPrefix qualifier place =>
    s!"Unbound namespace prefix '{qualifier}' at {place.text}"
  | .unknownEntity name place =>
    s!"Unknown entity reference '&{name};' at {place.text}"
  | .unclosedElement tag => s!"Element '{tag}' is not closed"
  | .noRoot => "Document has no root element"
  | .manyRoots => "Document has more than one root element"

end Stencil.Markup
