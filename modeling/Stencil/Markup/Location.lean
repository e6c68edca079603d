/-
Where a node begins: a line and a column, both counted from one, the column
in bytes. A source has a table of the offsets at which its lines begin, and
an offset is located by the last of them that is not beyond it.
-/
import Stencil.Text.Search

namespace Stencil.Markup

structure Location where
  line : Nat
  column : Nat
deriving DecidableEq, Repr, Inhabited

/-- The location as diagnostics spell it. -/
def Location.text (l : Location) : String :=
  s!"line {l.line}, column {l.column}"

/-- The offsets just behind each line feed, the source beginning at `pos`. -/
def breaksFrom (pos : Nat) : List Char → List Nat
  | [] => []
  | c :: s =>
    if c = '\n' then (pos + 1) :: breaksFrom (pos + 1) s
    else breaksFrom (pos + c.utf8Size) s

/-- The byte offsets at which the lines of a source begin. -/
def lineStarts (source : List Char) : List Nat := 0 :: breaksFrom 0 source

/-- The place of a byte offset, given the table of line starts. -/
def Location.ofOffset (starts : List Nat) (pos : Nat) : Location :=
  let passed := starts.takeWhile (· ≤ pos)
  { line := passed.length, column := pos - passed.getLastD 0 + 1 }

end Stencil.Markup
