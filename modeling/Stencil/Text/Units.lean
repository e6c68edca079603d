/-
Characters as units of 16 bits: most are one unit, and those beyond the first
65536 are a pair, a high surrogate and a low one, that carry ten bits each.
-/
namespace Stencil.Text

/-- The first code point that takes a pair. -/
def pairBase : Nat := 0x10000

def isHighSurrogate (n : Nat) : Bool := 0xD800 ≤ n && n < 0xDC00

def isLowSurrogate (n : Nat) : Bool := 0xDC00 ≤ n && n < 0xE000

/-- The code point of a pair. -/
def codeOfPair (high low : Nat) : Nat :=
  pairBase + (high - 0xD800) * 0x400 + (low - 0xDC00)

/-- The units of a code point. -/
def unitsOfCode (n : Nat) : List Nat :=
  if n < pairBase then [n]
  else [0xD800 + (n - pairBase) / 0x400, 0xDC00 + (n - pairBase) % 0x400]

/-- The units of a text. -/
def units (s : List Char) : List Nat :=
  s.flatMap fun c => unitsOfCode c.toNat

/-- The pair of a code point gives it back. -/
theorem codeOfPair_units {n : Nat} (h : pairBase ≤ n) :
    codeOfPair (0xD800 + (n - pairBase) / 0x400)
      (0xDC00 + (n - pairBase) % 0x400) = n := by
  unfold codeOfPair
  omega

end Stencil.Text
