/-
Values from properties: lines of a key and a text. White space here is space,
tab and form feed. A line ending in an odd number of backslashes goes on in
the next; `#` and `!` begin comments. A key ends at `=`, `:` or white space
that no backslash precedes.
-/
import Stencil.Expr.Value
import Stencil.Number.Radix
import Stencil.Text.Lines

namespace Stencil.Binding.Properties

open Stencil.Expr (Value enterAll)

/-- The white space of properties. -/
def isGap (c : Char) : Bool := c = ' ' || c = '\t' || c = '\x0c'

def dropGap (s : List Char) : List Char := s.dropWhile isGap

-- ========================================================== logical lines

/-- The line ends in an odd number of backslashes. -/
def continues (line : List Char) : Bool :=
  (line.reverse.takeWhile (· = '\\')).length % 2 = 1

/-- A blank line or a comment, when no line is being continued. -/
def isSkipped (line : List Char) : Bool :=
  line.isEmpty || line.head? = some '#' || line.head? = some '!'

/-- Joins continued lines; `pending` holds the parts of the line so far. -/
def joinFrom : Option (List Char) → List (List Char) → List (List Char)
  | none, [] => []
  | some line, [] => [line]
  | pending, raw :: rest =>
    let line := dropGap raw
    if pending.isNone && isSkipped line then joinFrom none rest
    else if continues line then
      joinFrom (some (pending.getD [] ++ line.dropLast)) rest
    else (pending.getD [] ++ line) :: joinFrom none rest

/-- The lines of a text with continued ones joined and the rest dropped. -/
def logicalLines (s : List Char) : List (List Char) :=
  joinFrom none (Text.lines s)

-- =============================================================== entries

/-- What ends a key. -/
def endsKey (c : Char) : Bool := c = '=' || c = ':' || isGap c

/-- The raw key at the front of a line, and the rest. -/
def splitKey : List Char → List Char × List Char
  | [] => ([], [])
  | ['\\'] => (['\\'], [])
  | '\\' :: c :: s =>
    let (key, rest) := splitKey s
    ('\\' :: c :: key, rest)
  | c :: s =>
    if endsKey c then ([], c :: s)
    else
      let (key, rest) := splitKey s
      (c :: key, rest)

/-- The raw value behind a key: behind white space, and one `=` or `:` with
white space around it. -/
def dropSeparator (s : List Char) : List Char :=
  match dropGap s with
  | '=' :: r => dropGap r
  | ':' :: r => dropGap r
  | r => r

/-- What a backslash and a character stand for. -/
def unescapeChar : Char → Char
  | 't' => '\t'
  | 'n' => '\n'
  | 'r' => '\r'
  | 'f' => '\x0c'
  | c => c

/-- What stands for a numbered escape: its character if it has one, else the
escape as written. -/
def numbered (digits : List Char) : List Char :=
  let code := Number.natural? 16 (Number.dropPlus digits)
  match code.bind Number.charOfCode? with
  | some c => [c]
  | none => '\\' :: 'u' :: digits

/-- Resolves escapes; a backslash at the end is dropped. -/
def unescape (s : List Char) : List Char :=
  match s with
  | [] => []
  | ['\\'] => []
  | '\\' :: 'u' :: s => numbered (s.take 4) ++ unescape (s.drop 4)
  | '\\' :: c :: s => unescapeChar c :: unescape s
  | c :: s => c :: unescape s
termination_by s.length

/-- The key and the text of a line. -/
def entry (line : List Char) : String × String :=
  let (key, rest) := splitKey line
  (String.ofList (unescape key), String.ofList (unescape (dropSeparator rest)))

/-- The entries of a text in order; of equal keys the last counts. -/
def entries (text : String) : List (String × String) :=
  enterAll ((logicalLines text.toList).map entry)

/-- The map of a text's entries. -/
def read (text : String) : Value :=
  .map ((entries text).map fun (k, v) => (k, .string v))

end Stencil.Binding.Properties
