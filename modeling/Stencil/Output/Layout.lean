/-
Output laid out: what becomes of the white space of pieces before they are
written as they are.

Character data that stands side by side is one run, and a run of white space
alone may be dropped (`settle`). What is left can be indented (`indent`): a
child element goes to a new line, and so does the end tag behind it, as long as
no character data has been met in their parent.
-/
import Stencil.Output.Forest

namespace Stencil.Output

-- ================================================================== runs

/-- A run of character data that is written. -/
def keeps (w : Whitespace) (run : String) : Bool :=
  !run.isEmpty && !Writer.drops w run

/-- What is left of a run. -/
def runPieces (w : Whitespace) (run : String) : List Piece :=
  if keeps w run then [.text run] else []

mutual

/-- A piece with the runs in it joined, and dropped as the option says. -/
def Piece.settled (w : Whitespace) : Piece → Piece
  | .element name attributes children =>
    .element name attributes (settle w "" children)
  | p => p

/-- Pieces behind a run of character data. -/
def settle (w : Whitespace) (run : String) : List Piece → List Piece
  | [] => runPieces w run
  | p :: ps =>
    match p with
    | .text s => settle w (run ++ s) ps
    | p => runPieces w run ++ p.settled w :: settle w "" ps

end

-- ================================================================== lines

/-- The white space before what stands so deep on a line of its own. A line on
which nothing stands yet is made use of. -/
def lineText (fed : Bool) (depth : Nat) : String :=
  (if fed then "" else "\n") ++ String.join (List.replicate depth "  ")

def linePieces (fed : Bool) (depth : Nat) : List Piece :=
  runPieces .all (lineText fed depth)

/-- What has been met of the contents of an element: character data, elements,
and whether nothing stands on the line behind it. -/
structure Margin where
  data : Bool
  elements : Bool
  fed : Bool

/-- Nothing, behind a start tag. -/
def Margin.inside : Margin := ⟨false, false, false⟩

/-- Nothing, at the beginning of a document. -/
def Margin.outside : Margin := ⟨false, false, true⟩

mutual

/-- A piece that stands so deep, with its contents indented. -/
def Piece.indented (depth : Nat) : Piece → Piece
  | .element name attributes children =>
    .element name attributes (indent (depth + 1) .inside children)
  | p => p

/-- Contents that stand so deep, behind what has been met of them; the end of
them stands one level further out. -/
def indent (depth : Nat) (m : Margin) : List Piece → List Piece
  | [] => if m.elements && !m.data then linePieces m.fed (depth - 1) else []
  | p :: ps =>
    match p with
    | .element .. =>
      (if m.data then [] else linePieces m.fed depth)
        ++ p.indented depth :: indent depth ⟨m.data, true, false⟩ ps
    | .doctype .. => p :: indent depth { m with fed := true } ps
    | p => p :: indent depth { m with data := true } ps

end

/-- The pieces of a document as they are written under an option. -/
def laidOut (w : Whitespace) (ps : List Piece) : List Piece :=
  if w = .indent then indent 0 .outside (settle w "" ps) else settle w "" ps

end Stencil.Output
