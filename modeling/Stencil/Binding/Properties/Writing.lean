/-
Properties in writing: each entry on a line of its own, a key, an equals sign
and a value, with a backslash before whatever reading would take for
something else. Any text can also be spelled by its units of 16 bits.
-/
import Stencil.Binding.Properties
import Stencil.Text.Units

namespace Stencil.Binding.Properties

/-- A character of a value. -/
def escapeChar : Char → List Char
  | '\\' => ['\\', '\\']
  | '\t' => ['\\', 't']
  | '\n' => ['\\', 'n']
  | '\r' => ['\\', 'r']
  | '\x0c' => ['\\', 'f']
  | c => [c]

/-- A character of a key, at its front or not. -/
def escapeKeyChar (front : Bool) (c : Char) : List Char :=
  if c = ' ' || c = '=' || c = ':' || front && (c = '#' || c = '!')
  then ['\\', c]
  else escapeChar c

def writeKey : List Char → List Char
  | [] => []
  | c :: s => escapeKeyChar true c ++ s.flatMap (escapeKeyChar false)

def writeValue : List Char → List Char
  | ' ' :: s => '\\' :: ' ' :: s.flatMap escapeChar
  | s => s.flatMap escapeChar

/-- An entry, without the end of its line. -/
def writeEntry (e : String × String) : List Char :=
  writeKey e.1.toList ++ '=' :: writeValue e.2.toList

/-- Entries, each with the end of its line. -/
def write (es : List (String × String)) : String :=
  String.ofList (es.flatMap fun e => writeEntry e ++ ['\n'])

-- ================================================================= units

/-- A unit as an escape of four hexadecimal digits. -/
def unitEscape (n : Nat) : List Char :=
  let digits := Nat.toDigits 16 n
  '\\' :: 'u' :: (List.replicate (4 - digits.length) '0' ++ digits)

/-- A text spelled by its units. -/
def unitEscapes (s : List Char) : List Char :=
  (Text.units s).flatMap unitEscape

end Stencil.Binding.Properties
