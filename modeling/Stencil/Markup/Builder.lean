/-
From events to a document. The builder holds the elements still open, each
with the children it has so far, newest first; the outermost frame is the
document itself. A finished element becomes a child of the frame around it.

Nodes are numbered when they begin, so numbers follow document order. Text
directly behind text joins it, and keeps the place of the first.
-/
import Stencil.Markup.Event
import Stencil.Markup.Node

namespace Stencil.Markup

/-- An open element, or the document, with its children newest first. -/
structure Frame where
  label : Label
  children : List Tree

/-- The tree of a frame whose children are complete. -/
def Frame.close (f : Frame) : Tree := .node f.label f.children.reverse

def Frame.push (f : Frame) (t : Tree) : Frame :=
  { f with children := t :: f.children }

def Frame.declarations (f : Frame) : Declarations :=
  match f.label.content with
  | .element e => e.declarations
  | _ => []

/-- The innermost open frame, the frames around it, nearest first, and the
number of the next node. -/
structure Builder where
  current : Frame
  outer : List Frame
  next : Nat

namespace Builder

/-- Nothing but the document is open. -/
def start : Builder :=
  ⟨⟨⟨0, ⟨1, 1⟩, .document⟩, []⟩, [], 1⟩

/-- No element is open. -/
def atTop (b : Builder) : Bool := b.outer.isEmpty

/-- The document has its root element already. -/
def hasRoot (b : Builder) : Bool :=
  b.atTop && b.current.children.any Tree.isElement

-- ============================================================ namespaces

/-- The namespace of a qualifier on an element that makes the declarations
`own`: the nearest declaration decides, and an empty URI is none. -/
def resolve? (b : Builder) (own : Declarations) (q : Option String) :
    Option String :=
  if q = some "xml" then some xmlUri
  else
    (((own :: b.current.declarations :: b.outer.map Frame.declarations)
      |>.findSome? fun ds => ds.find? q).filter fun uri => !uri.isEmpty)

/-- What an attribute declares, if it is a declaration. -/
def declaration? (a : String × String) : Option (Option String × String) :=
  if a.1 = "xmlns" then some (none, a.2)
  else
    match (Name.ofText a.1).qualifier with
    | some "xmlns" => some (some (Name.ofText a.1).localPart, a.2)
    | _ => none

/-- An attribute with its namespace. Without a qualifier it has none. -/
def qualify (b : Builder) (own : Declarations) (place : Location)
    (a : String × String) : Except Error Attribute :=
  let name := Name.ofText a.1
  if a.1 = "xmlns" || name.qualifier = some "xmlns" then
    .ok ⟨name, some declarationUri, a.2⟩
  else
    match name.qualifier with
    | none => .ok ⟨name, none, a.2⟩
    | some q =>
      match b.resolve? own (some q) with
      | some uri => .ok ⟨name, some uri, a.2⟩
      | none => .error (.unboundPrefix q place)

/-- The element of a start tag. -/
def element (b : Builder) (place : Location) (tag : List Char) :
    Except Error Element := do
  let raw ← (readAttributes tag).mapError fun f => Error.markup f place
  let own := raw.filterMap declaration?
  let name := Name.ofText (String.ofList (tagName tag))
  let uri := b.resolve? own name.qualifier
  match name.qualifier, uri with
  | some q, none => .error (.unboundPrefix q place)
  | _, _ =>
    let attributes ← raw.mapM (b.qualify own place)
    .ok ⟨name, uri, attributes, own⟩

-- ================================================================ growing

/-- A new node without children. -/
def leaf (b : Builder) (place : Location) (content : Content) : Builder :=
  { b with
    current := b.current.push (.node ⟨b.next, place, content⟩ [])
    next := b.next + 1 }

/-- A new open element. -/
def openElement (b : Builder) (place : Location) (e : Element) : Builder :=
  { current := ⟨⟨b.next, place, .element e⟩, []⟩
    outer := b.current :: b.outer
    next := b.next + 1 }

/-- Character data inside an element. -/
def addText (b : Builder) (place : Location) (s : String) : Builder :=
  match b.current.children with
  | .node ⟨id, first, .text t⟩ ts :: rest =>
    let joined := Tree.node ⟨id, first, .text (t ++ s)⟩ ts
    { b with current := ⟨b.current.label, joined :: rest⟩ }
  | _ => b.leaf place (.text s)

/-- Character data: only white space may stand outside the root element, and
it is dropped. -/
def text (b : Builder) (place : Location) (s : String) :
    Except Error Builder :=
  if s.isEmpty then .ok b
  else if b.atTop then
    if Text.allBlank s then .ok b else .error (.markup .textOutsideRoot place)
  else .ok (b.addText place s)

/-- An end tag closes the innermost open element, which it has to name. -/
def stop (b : Builder) (place : Location) (name : String) :
    Except Error Builder :=
  match b.current.label.content, b.outer with
  | .element e, f :: fs =>
    if e.name.text = name then
      .ok ⟨f.push b.current.close, fs, b.next⟩
    else .error (.markup (.closesOther e.name.text name) place)
  | _, _ => .error (.markup (.closesNothing name) place)

/-- One event at its place. -/
def feed (b : Builder) (place : Location) : Event → Except Error Builder
  | .start tag empty => do
    if b.hasRoot then .error .manyRoots
    else
      let e ← b.element place tag
      if empty then .ok (b.leaf place (.element e))
      else .ok (b.openElement place e)
  | .stop name => b.stop place name
  | .text s => b.text place s
  | .reference name =>
    match referenced? name with
    | some c => b.text place c.toString
    | none => .error (.unknownEntity (String.ofList name) place)
  | .cdata s =>
    if b.atTop then .error (.markup .cdataOutsideRoot place)
    else .ok (b.leaf place (.cdata s))
  | .comment s => .ok (b.leaf place (.comment s))
  | .instruction target data => .ok (b.leaf place (.instruction target data))

/-- The events in order, located by the table of line starts. -/
def run (starts : List Nat) (b : Builder) :
    List Placed → Except Error Builder
  | [] => .ok b
  | e :: es => do
    let b ← b.feed (Location.ofOffset starts e.offset) e.event
    run starts b es

/-- The finished document tree: every element is closed and there is a
root. -/
def finish (b : Builder) : Except Error Tree :=
  match b.current.label.content, b.outer with
  | .element e, _ => .error (.unclosedElement e.name.text)
  | _, _ => if b.hasRoot then .ok b.current.close else .error .noRoot

end Builder

/-- The tree of a source. A fault of the markup is met behind the events
before it. -/
def Tree.parse (source : List Char) : Except Error Tree := do
  let starts := lineStarts source
  let scanned := scan source
  let b ← Builder.start.run starts scanned.events
  match scanned.failure with
  | some (pos, fault) => .error (.markup fault (Location.ofOffset starts pos))
  | none => b.finish

/-- Parses a source into a document of the given origin. -/
def Document.parse (origin : Origin) (source : String) :
    Except Error Document :=
  (Tree.parse source.toList).map fun root => ⟨origin, root⟩

end Stencil.Markup
