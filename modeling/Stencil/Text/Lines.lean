/-
The lines of a text: a line feed ends a line, together with one carriage
return before it. A text that ends with a line feed has no empty last line.
-/
namespace Stencil.Text

/-- A line that a line feed ends, without the carriage return before it. -/
def endLine (s : List Char) : List Char :=
  if s.getLast? = some '\r' then s.dropLast else s

/-- The lines of the text, given the characters of the first one so far. -/
def linesFrom (line : List Char) : List Char → List (List Char)
  | [] => if line.isEmpty then [] else [line]
  | c :: s =>
    if c = '\n' then endLine line :: linesFrom [] s
    else linesFrom (line ++ [c]) s

def lines (s : List Char) : List (List Char) := linesFrom [] s

end Stencil.Text
