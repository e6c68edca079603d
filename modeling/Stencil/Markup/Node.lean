/-
A node of a document: the tree below it, and the trees it lies in, nearest
first. Moving down pushes the tree just left, moving up takes it back, so a
node knows its ancestors without any table of nodes.

Two nodes are the same when they have the same number in the same document;
a document is known by its origin.
-/
import Stencil.Markup.Tree

namespace Stencil.Markup

/-- What tells one document from another: a document is either given, and
numbered, or loaded under an address. An address loaded again after the store
of documents was cleared gives another document, of a later `epoch`. -/
inductive Origin where
  | given (number : Nat)
  | loaded (epoch : Nat) (address : String)
deriving DecidableEq, Repr, Inhabited

structure Document where
  origin : Origin
  root : Tree

structure Node where
  origin : Origin
  tree : Tree
  trail : List Tree

/-- The document node. -/
def Document.node (d : Document) : Node := ⟨d.origin, d.root, []⟩

namespace Node

def label (n : Node) : Label := n.tree.label

def id (n : Node) : Nat := n.label.id

def place (n : Node) : Location := n.label.place

def content (n : Node) : Content := n.label.content

/-- The same node of the same document. -/
def same (m n : Node) : Bool := m.origin == n.origin && m.id == n.id

-- ============================================================ navigation

def parent? (n : Node) : Option Node :=
  match n.trail with
  | [] => none
  | t :: ts => some ⟨n.origin, t, ts⟩

/-- The node of a child's tree. -/
def below (n : Node) (child : Tree) : Node :=
  ⟨n.origin, child, n.tree :: n.trail⟩

def children (n : Node) : List Node := n.tree.children.map n.below

/-- The nodes on a trail, nearest first. -/
def onTrail (origin : Origin) : List Tree → List Node
  | [] => []
  | t :: ts => ⟨origin, t, ts⟩ :: onTrail origin ts

/-- The ancestors, nearest first. -/
def ancestors (n : Node) : List Node := onTrail n.origin n.trail

/-- The node itself and its ancestors. -/
def lineage (n : Node) : List Node := n :: n.ancestors

/-- The node reached by taking the child of each index in turn. -/
def follow? (n : Node) : List Nat → Option Node
  | [] => some n
  | i :: path => (n.children[i]?).bind fun c => c.follow? path

-- ============================================================ properties

def element? (n : Node) : Option Element := n.content.element?

def isElement (n : Node) : Bool := n.element?.isSome

def isText (n : Node) : Bool :=
  match n.content with
  | .text _ => true
  | _ => false

def isCData (n : Node) : Bool :=
  match n.content with
  | .cdata _ => true
  | _ => false

def childElements (n : Node) : List Node := n.children.filter isElement

/-- The qualified name of an element. -/
def tag? (n : Node) : Option String := n.element?.map (·.name.text)

/-- Character data of a text or a CDATA section. -/
def characters? (n : Node) : Option String := n.content.characters?

def attributes (n : Node) : List Attribute :=
  match n.element? with
  | some e => e.attributes
  | none => []

/-- The value of the attribute with a qualified name. -/
def attribute? (n : Node) (name : String) : Option String :=
  n.element?.bind fun e => (e.attribute? name).map (·.value)

def attributeIn? (n : Node) (uri localPart : String) : Option Attribute :=
  n.element?.bind fun e => e.attributeIn? uri localPart

/-- An element with a local name in a namespace. -/
def isNamed (n : Node) (uri localPart : String) : Bool :=
  match n.element? with
  | some e => e.uri == some uri && e.name.localPart == localPart
  | none => false

def textContent (n : Node) : String := n.tree.textContent

def isInsignificant (n : Node) : Bool := n.content.isInsignificant

/-- Every child is a comment or white space. -/
def isContentEmpty (n : Node) : Bool := n.children.all isInsignificant

/-- What an element declares for a qualifier. -/
def declared? (n : Node) (q : Option String) : Option String :=
  n.element?.bind fun e => e.declarations.find? q

/-- The URI of a qualifier at a node: that of the nearest declaration on the
node or an ancestor. -/
def resolve? (n : Node) (q : Option String) : Option String :=
  if q = some "xml" then some xmlUri
  else n.lineage.findSome? fun m => m.declared? q

/-- The node as a diagnostic listing shows it. -/
def brief (n : Node) : String :=
  match n.content with
  | .document => "NodeRef(document)"
  | .element e => s!"NodeRef(<{e.name.text}> #{n.id})"
  | .text _ => s!"NodeRef(text #{n.id})"
  | .cdata _ => s!"NodeRef(cdata #{n.id})"
  | .comment _ => s!"NodeRef(comment #{n.id})"
  | .instruction target _ => s!"NodeRef(<?{target}?> #{n.id})"

end Node

/-- The single top-level element. -/
def Document.rootElement? (d : Document) : Option Node :=
  d.node.children.find? Node.isElement

end Stencil.Markup
