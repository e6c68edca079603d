/-
The writer: events to text, as XML or as HTML.

A start tag is left open until something follows, so that an empty element
can close in it; character data is held back until something else follows,
so that a run of it is judged as a whole. What the writer does to its own
state before a refused write stays done.
-/
import Stencil.Markup.Entity
import Stencil.Output.Event
import Stencil.Text.Blank

namespace Stencil.Output

/-- Elements that HTML writes without an end tag. -/
def voidElements : List String :=
  ["area", "base", "br", "col", "embed", "hr", "img", "input", "link",
   "meta", "param", "source", "track", "wbr"]

/-- Elements whose character data HTML writes as it is. -/
def rawElements : List String := ["script", "style"]

/-- The name is in the list, in any case. -/
def isOneOf (names : List String) (name : String) : Bool :=
  names.any fun n => Text.sameIgnoringCase n.toList name.toList

/-- An element whose end tag is still to come. -/
structure OpenElement where
  name : String
  hasElements : Bool
  hasText : Bool
  void : Bool
  raw : Bool
deriving DecidableEq, Repr

/-- The writer's options, what it has written (newest chunk first, none of
them empty), how many more writes the destination takes (`none` for any
number), and what is still open or held back. -/
structure Writer where
  dialect : Dialect
  whitespace : Whitespace
  declaration : Bool
  chunks : List String
  room : Option Nat
  opened : List OpenElement
  tagOpen : Bool
  pending : String
  inCData : Bool
  cdata : String
deriving DecidableEq, Repr

/-- An action of the writer; it keeps its changes when it fails. -/
abbrev Writing := EStateM Error Writer

namespace Writer

/-- A writer that has written nothing. -/
def fresh (dialect : Dialect) (whitespace : Whitespace) (declaration : Bool)
    (room : Option Nat) : Writer where
  dialect := dialect
  whitespace := whitespace
  declaration := declaration
  chunks := []
  room := room
  opened := []
  tagOpen := false
  pending := ""
  inCData := false
  cdata := ""

/-- All that was written. -/
def text (w : Writer) : String := String.join w.chunks.reverse

/-- Nothing stands on the current line of output. -/
def atLineStart (w : Writer) : Bool :=
  match w.chunks with
  | [] => true
  | s :: _ => s.toList.getLast? == some '\n'

-- =============================================================== actions

/-- What a destination without room says. -/
def full : Error := .io "sink full"

/-- Writes a text, if it is not empty. -/
def write (s : String) : Writing Unit := fun w =>
  if s.isEmpty then .ok () w
  else
    match w.room with
    | some 0 => .error full w
    | some (n + 1) =>
      .ok () { w with chunks := s :: w.chunks, room := some n }
    | none => .ok () { w with chunks := s :: w.chunks }

/-- Closes the start tag that is open. -/
def closeTag : Writing Unit := do
  if (← get).tagOpen then
    modify fun w => { w with tagOpen := false }
    write ">"

/-- Goes to a new line and indents it, when the output is indented and not
empty. -/
def newLine (depth : Nat) : Writing Unit := do
  let w ← get
  if w.whitespace = .indent && !w.chunks.isEmpty then
    let feed := if w.atLineStart then "" else "\n"
    write (feed ++ String.join (List.replicate depth "  "))

/-- Changes the innermost open element. -/
def onInnermost (f : OpenElement → OpenElement) : Writing Unit :=
  modify fun w =>
    match w.opened with
    | [] => w
    | e :: es => { w with opened := f e :: es }

/-- A run of character data that the whitespace option drops. -/
def drops (w : Whitespace) (s : String) : Bool :=
  w != .all && Text.allBlank s

/-- Writes the character data held back. -/
def flush : Writing Unit := do
  let s := (← get).pending
  if !s.isEmpty then
    modify fun w => { w with pending := "" }
    if !drops (← get).whitespace s then
      closeTag
      let raw := (← get).opened.head?.any (·.raw)
      onInnermost fun e => { e with hasText := true }
      write (if raw then s else Markup.escapeText s)

/-- A start tag up to its `>`. -/
def startTag (name : String) (attributes : List (String × String)) : String :=
  "<" ++ name
    ++ String.join (attributes.map fun (k, v) =>
      " " ++ k ++ "=\"" ++ Markup.escape v ++ "\"")

def openElement (name : ElementName) (attributes : List (String × String)) :
    Writing Unit := do
  flush
  closeTag
  let w ← get
  if !w.opened.head?.any (·.hasText) then newLine w.opened.length
  onInnermost fun e => { e with hasElements := true }
  write (startTag name.qualified attributes)
  let html := w.dialect = .html
  let e : OpenElement :=
    { name := name.qualified
      hasElements := false
      hasText := false
      void := html && isOneOf voidElements name.localPart
      raw := html && isOneOf rawElements name.localPart }
  modify fun w => { w with tagOpen := true, opened := e :: w.opened }

/-- The end of an element, already taken off the open ones. -/
def closeElement (e : OpenElement) : Writing Unit := do
  let w ← get
  if w.tagOpen && w.dialect = .xml then
    modify fun w => { w with tagOpen := false }
    write "/>"
  else
    closeTag
    if !e.void then
      if e.hasElements && !e.hasText then newLine w.opened.length
      write ("</" ++ e.name ++ ">")

def stopElement (name : ElementName) : Writing Unit := do
  flush
  match (← get).opened with
  | [] => throw (.noOpenElement name.qualified)
  | e :: es =>
    modify fun w => { w with opened := es }
    if e.name = name.qualified then closeElement e
    else throw (.unbalancedEnd e.name name.qualified)

/-- A CDATA section; its data may not hold the closing mark, which is split
between two sections. -/
def cdataSection (data : String) : String :=
  "<![CDATA["
    ++ String.ofList (Text.replaceAll "]]>".toList
      "]]]]><![CDATA[>".toList data.toList)
    ++ "]]>"

def stopCData : Writing Unit := do
  let data := (← get).cdata
  modify fun w => { w with inCData := false, cdata := "" }
  closeTag
  onInnermost fun e => { e with hasText := true }
  match (← get).dialect with
  | .xml => write (cdataSection data)
  | .html => write (Markup.escapeText data)

/-- The identifiers of a document type. -/
def externalId : Option String → Option String → String
  | some p, some s => " PUBLIC \"" ++ p ++ "\" \"" ++ s ++ "\""
  | some p, none => " PUBLIC \"" ++ p ++ "\""
  | none, some s => " SYSTEM \"" ++ s ++ "\""
  | none, none => ""

def xmlDeclaration : String :=
  "<?xml version=\"1.0\" encoding=\"UTF-8\"?>\n"

def startDocument : Writing Unit := do
  let w ← get
  if w.dialect = .xml && w.declaration then write xmlDeclaration

def endDocument : Writing Unit := do
  flush
  let w ← get
  if !w.opened.isEmpty then throw (.unclosedElements w.opened.length)
  if w.whitespace = .indent && !w.atLineStart then write "\n"

/-- Writes an event. -/
def accept : Event → Writing Unit
  | .startDocument => startDocument
  | .endDocument => endDocument
  | .start name attributes => openElement name attributes
  | .stop name => stopElement name
  | .characters s =>
    modify fun w =>
      if w.inCData then { w with cdata := w.cdata ++ s }
      else { w with pending := w.pending ++ s }
  | .startCData => do
    flush
    modify fun w => { w with inCData := true }
  | .endCData => stopCData
  | .startDoctype name publicId systemId => do
    flush
    closeTag
    write ("<!DOCTYPE " ++ name ++ externalId publicId systemId ++ ">\n")
  | .endDoctype => pure ()

/-- Writes events one after another, up to the first that fails. -/
def acceptAll (es : List Event) : Writing Unit := es.forM accept

def sink : Sink Writer where
  send w e :=
    match accept e w with
    | .ok _ w => (w, none)
    | .error e w => (w, some e)

end Writer

end Stencil.Output
