/-
Documents as output: the pieces that a tree is written as. Comments and
instructions are no output, and which attributes an element keeps is for the
writer of the tree to say.
-/
import Stencil.Markup.Tree
import Stencil.Output.Forest

namespace Stencil.Output

open Markup (Element)

/-- The name of an element in the output. -/
def ElementName.ofElement (e : Element) : ElementName :=
  ⟨e.uri, e.name.localPart, e.name.text⟩

/-- All attributes of an element, declarations among them. -/
def allAttributes (e : Element) : List (String × String) :=
  e.attributes.map fun a => (a.name.text, a.value)

mutual

/-- The pieces of a tree whose elements are written with some attributes. -/
def treePieces (attributes : Element → List (String × String)) :
    Markup.Tree → List Piece
  | .node label ts =>
    match label.content with
    | .document => treesPieces attributes ts
    | .element e =>
      [.element (.ofElement e) (attributes e) (treesPieces attributes ts)]
    | .text s => [.text s]
    | .cdata s => [.cdata s]
    | _ => []

def treesPieces (attributes : Element → List (String × String)) :
    List Markup.Tree → List Piece
  | [] => []
  | t :: ts => treePieces attributes t ++ treesPieces attributes ts

end

/-- The pieces of a document as it stands. -/
def documentPieces (root : Markup.Tree) : List Piece :=
  treePieces allAttributes root

end Stencil.Output
