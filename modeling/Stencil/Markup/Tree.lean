/-
A parsed document as a tree. Each tree carries a label (its number, its place
in the source and what it holds) and its children in order. Only the document
and elements have children; the builder keeps it so.

Recursion over a tree and over a list of trees comes in pairs throughout: the
function on lists is the one on trees, applied from left to right.
-/
import Stencil.Markup.Location
import Stencil.Text.Blank

namespace Stencil.Markup

-- ================================================================= names

/-- A qualified name as written, with the parts around its first colon. -/
structure Name where
  text : String
  qualifier : Option String
  localPart : String
deriving DecidableEq, Repr, Inhabited

/-- Splits a qualified name at its first colon. -/
def Name.ofText (s : String) : Name :=
  match Text.breakOn? [':'] s.toList with
  | some (q, l) => ⟨s, some (String.ofList q), String.ofList l⟩
  | none => ⟨s, none, s⟩

/-- The namespace of declarations themselves. -/
def declarationUri : String := "http://www.w3.org/2000/xmlns/"

/-- The namespace that the qualifier `xml` always has. -/
def xmlUri : String := "http://www.w3.org/XML/1998/namespace"

-- ============================================================== elements

/-- An attribute with its resolved namespace. -/
structure Attribute where
  name : Name
  uri : Option String
  value : String
deriving DecidableEq, Repr

/-- A declaration binds a qualifier, or the default namespace, to a URI. -/
def Attribute.isDeclaration (a : Attribute) : Bool :=
  a.uri == some declarationUri

/-- Qualifiers and the URIs that an element binds them to; `none` stands for
the default namespace. -/
abbrev Declarations := List (Option String × String)

/-- The URI bound to a qualifier by the first declaration of it. -/
def Declarations.find? (ds : Declarations) (q : Option String) :
    Option String :=
  ds.lookup q

structure Element where
  name : Name
  uri : Option String
  attributes : List Attribute
  declarations : Declarations
deriving DecidableEq, Repr

namespace Element

/-- The attribute with a qualified name. -/
def attribute? (e : Element) (name : String) : Option Attribute :=
  e.attributes.find? fun a => a.name.text == name

/-- The attribute with a local name in a namespace. -/
def attributeIn? (e : Element) (uri localPart : String) : Option Attribute :=
  e.attributes.find? fun a =>
    a.uri == some uri && a.name.localPart == localPart

end Element

-- ================================================================= trees

inductive Content where
  | document
  | element (e : Element)
  | text (s : String)
  | cdata (s : String)
  | comment (s : String)
  | instruction (target data : String)
deriving DecidableEq, Repr

/-- Number, place and content of a node. The document is number 0 and the
others are numbered in document order. -/
structure Label where
  id : Nat
  place : Location
  content : Content
deriving DecidableEq, Repr

inductive Tree where
  | node (label : Label) (children : List Tree)
deriving Repr

namespace Content

/-- The element that the content is. -/
def element? : Content → Option Element
  | .element e => some e
  | _ => none

/-- Character data of a text or a CDATA section. -/
def characters? : Content → Option String
  | .text s => some s
  | .cdata s => some s
  | _ => none

/-- Comments and white space carry nothing. -/
def isInsignificant : Content → Bool
  | .comment _ => true
  | .text s => Text.allBlank s
  | .cdata s => Text.allBlank s
  | _ => false

end Content

namespace Tree

def label : Tree → Label
  | .node l _ => l

def children : Tree → List Tree
  | .node _ ts => ts

def content (t : Tree) : Content := t.label.content

def isElement (t : Tree) : Bool := t.content.element?.isSome

def isInsignificant (t : Tree) : Bool := t.content.isInsignificant

mutual

/-- The character data of a tree's texts and CDATA sections, in order. -/
def textContent : Tree → String
  | .node l ts =>
    match l.content with
    | .text s => s
    | .cdata s => s
    | .document => textContents ts
    | .element _ => textContents ts
    | _ => ""

def textContents : List Tree → String
  | [] => ""
  | t :: ts => textContent t ++ textContents ts

end

mutual

/-- The tree and all below it, in document order. -/
def preorder : Tree → List Tree
  | .node l ts => .node l ts :: preorders ts

def preorders : List Tree → List Tree
  | [] => []
  | t :: ts => preorder t ++ preorders ts

end

mutual

/-- The number of nodes. -/
def size : Tree → Nat
  | .node _ ts => sizes ts + 1

def sizes : List Tree → Nat
  | [] => 0
  | t :: ts => size t + sizes ts

end

end Tree

end Stencil.Markup
