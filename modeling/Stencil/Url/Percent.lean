/-
Percent escapes. A character that cannot stand in a part of an address is
written as its bytes, each a percent sign and two digits; which characters
those are differs between the parts.
-/
import Stencil.Number.Radix

namespace Stencil.Url

/-- Characters to escape besides the controls and all beyond ASCII. -/
abbrev EscapeSet := List Char

def controlsOnly : EscapeSet := []

def inFragment : EscapeSet := [' ', '"', '<', '>', '`']

def inQuery : EscapeSet := [' ', '"', '#', '<', '>']

/-- The query of an address with a special scheme. -/
def inSpecialQuery : EscapeSet := '\'' :: inQuery

def inPath : EscapeSet := inFragment ++ ['#', '?', '\x7b', '\x7d']

/-- A name that is to be one segment as it is. -/
def inSegment : EscapeSet := inPath ++ ['/', '%', '\\']

def inUserinfo : EscapeSet :=
  inPath ++ ['/', ':', ';', '=', '@', '[', '\\', ']', '^', '|']

-- =============================================================== escaping

def hexDigit (n : Nat) : Char :=
  if n < 10 then Char.ofNat (0x30 + n) else Char.ofNat (0x41 + n - 10)

def escapeByte (b : UInt8) : List Char :=
  ['%', hexDigit (b.toNat / 16), hexDigit (b.toNat % 16)]

/-- A character has to be escaped. -/
def isEscaped (set : EscapeSet) (c : Char) : Bool :=
  c.toNat < 0x20 || 0x7F ≤ c.toNat || set.contains c

def escapeChar (set : EscapeSet) (c : Char) : List Char :=
  if isEscaped set c then (String.utf8EncodeChar c).flatMap escapeByte
  else [c]

/-- A text with the characters of a set escaped. -/
def escape (set : EscapeSet) (s : List Char) : String :=
  String.ofList (s.flatMap (escapeChar set))

-- ============================================================= unescaping

/-- The bytes of a text with its escapes resolved. A percent sign that begins
no escape stands for itself. -/
def unescapeBytes : List Char → List UInt8
  | [] => []
  | '%' :: a :: b :: s =>
    match Number.digit? 16 a, Number.digit? 16 b with
    | some m, some n => UInt8.ofNat (16 * m + n) :: unescapeBytes s
    | _, _ => 0x25 :: unescapeBytes (a :: b :: s)
  | c :: s => String.utf8EncodeChar c ++ unescapeBytes s
termination_by s => s.length

/-- A text with its escapes resolved, if that is a text. -/
def unescape? (s : List Char) : Option String :=
  String.fromUTF8? (ByteArray.mk (unescapeBytes s).toArray)

end Stencil.Url
