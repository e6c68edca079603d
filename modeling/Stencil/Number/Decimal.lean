/-
Reading numbers: whole ones with a sign, and floats in decimal notation. A
decimal is read exactly and rounded once.
-/
import Stencil.Number.Whole
import Stencil.Number.Binary64
import Stencil.Text.Search

namespace Stencil.Number

/-- The value of decimal digits. -/
def ofDigits (s : List Char) : Nat :=
  s.foldl (fun n c => 10 * n + (c.toNat - '0'.toNat)) 0

/-- Whether the text begins with `-`, and the text behind its sign. -/
def splitSign : List Char → Bool × List Char
  | '-' :: s => (true, s)
  | '+' :: s => (false, s)
  | s => (false, s)

/-- A sign at most, then digits, in the range of 64 bits. -/
def readWhole? (s : List Char) : Option Int64 :=
  let (negative, digits) := splitSign s
  if digits.isEmpty || !digits.all Char.isDigit then none
  else
    let n := (ofDigits digits : Int)
    whole? (if negative then -n else n)

/-- The float nearest to `± m * 10 ^ e`. -/
def ofDecimal (negative : Bool) (m : Nat) (e : Int) : Float :=
  let f := Float.ofScientific m (e < 0) e.natAbs
  if negative then -f else f

/-- Digits around a point, and the power of ten behind an `e`. -/
structure Decimal where
  whole : List Char
  fraction : List Char
  exponent : Int
deriving DecidableEq, Repr

/-- The float nearest to a decimal. -/
def Decimal.toFloat (d : Decimal) (negative : Bool) : Float :=
  ofDecimal negative (ofDigits (d.whole ++ d.fraction))
    (d.exponent - d.fraction.length)

/-- The exponent part: nothing, or an `e`, a sign at most, and digits. -/
def readExponent? : List Char → Option Int
  | [] => some 0
  | c :: s =>
    if c = 'e' || c = 'E' then
      let (negative, digits) := splitSign s
      if digits.isEmpty || !digits.all Char.isDigit then none
      else
        let n := (ofDigits digits : Int)
        some (if negative then -n else n)
    else none

/-- Digits with at most one point, at least one digit, and an exponent. -/
def readDecimal? (s : List Char) : Option Decimal :=
  let whole := s.takeWhile Char.isDigit
  let behind := s.drop whole.length
  let fraction :=
    match behind with
    | '.' :: r => r.takeWhile Char.isDigit
    | _ => []
  let rest :=
    match behind with
    | '.' :: r => r.drop fraction.length
    | r => r
  if whole.isEmpty && fraction.isEmpty then none
  else (readExponent? rest).map fun e => ⟨whole, fraction, e⟩

/-- A float in decimal notation, or the name of a special one in any case. -/
def readFloat? (s : List Char) : Option Float :=
  let (negative, body) := splitSign s
  if Text.sameIgnoringCase body "nan".toList then some notANumber
  else if Text.sameIgnoringCase body "inf".toList
      || Text.sameIgnoringCase body "infinity".toList then
    some (infinity negative)
  else (readDecimal? body).map fun d => d.toFloat negative

end Stencil.Number
