/-
The fewest decimal digits that read back as the same float.

A decimal grid has the multiples of a power of ten. A float stands for every
real that rounds to it, an interval around its value; the coarsest grid with
a point in the interval gives the fewest digits, and of two such points the
nearer one is taken. All comparisons are of whole numbers: the interval is
given in quarters of the float's last binary place.
-/
import Stencil.Number.Binary64

namespace Stencil.Number

open Float.Model.UnpackedFloat (Sign)

/-- The reals that round to one float, in units of `2 ^ scale`; the ends
belong to it when `closed`. -/
structure Interval where
  low : Nat
  value : Nat
  high : Nat
  scale : Int
  closed : Bool

/-- The least exponent of a float, and the least mantissa of a normal one. -/
def leastExponent : Int := -1074

def leastNormal : Nat := Nat.pow 2 52

/-- The interval of the float `m * 2 ^ e`. Below a power of two the floats
lie twice as dense, so that the lower end is nearer. Ends round to the float
when its mantissa is even. -/
def Interval.ofFloat (m : Nat) (e : Int) : Interval :=
  let toLow := if m = leastNormal ∧ leastExponent < e then 1 else 2
  { low := 4 * m - toLow
    value := 4 * m
    high := 4 * m + 2
    scale := e - 2
    closed := m % 2 = 0 }

/-- Whether `n / den` lies in an interval with whole ends. -/
def Interval.holds (i : Interval) (den n : Nat) : Bool :=
  if i.closed then i.low ≤ n * den && n * den ≤ i.high
  else i.low < n * den && n * den < i.high

/-- The interval in units of `10 ^ place / den`. -/
def Interval.onGrid (i : Interval) (place : Int) : Interval × Nat :=
  let up := Nat.pow 2 i.scale.toNat * Nat.pow 10 (-place).toNat
  let den := Nat.pow 2 (-i.scale).toNat * Nat.pow 10 place.toNat
  ({ i with low := i.low * up, value := i.value * up, high := i.high * up },
    den)

/-- The multiple of `10 ^ place` in the interval that is nearest to the
value, the upper of two equally near. -/
def Interval.nearest? (i : Interval) (place : Int) : Option Nat :=
  let (i, den) := i.onGrid place
  let below := i.value / den
  let above := below + 1
  match i.holds den below, i.holds den above with
  | true, true =>
    if i.value - below * den < above * den - i.value then some below
    else some above
  | true, false => some below
  | false, true => some above
  | false, false => none

/-- Every float lies below `10 ^ 309`, and every interval holds a multiple of
`10 ^ (-330)`. -/
def places : List Int := (List.range 640).map fun (k : Nat) => 309 - (k : Int)

/-- Digits `n` and a power of ten `p` with `n * 10 ^ p` reading back as the
float `m * 2 ^ e`, with the fewest digits, the nearest of those. -/
def shortest (m : Nat) (e : Int) : Nat × Int :=
  let i := Interval.ofFloat m e
  (places.findSome? fun p => (i.nearest? p).map fun n => (n, p)).getD (0, 0)

-- =============================================================== display

/-- Digits `n` times `10 ^ p` in positional notation. -/
def positional (n : Nat) (p : Int) : List Char :=
  let digits := Nat.toDigits 10 n
  let shift := (-p).toNat
  if 0 ≤ p then digits ++ List.replicate p.toNat '0'
  else if shift < digits.length then
    digits.take (digits.length - shift)
      ++ '.' :: digits.drop (digits.length - shift)
  else '0' :: '.' :: (List.replicate (shift - digits.length) '0' ++ digits)

/-- Whole floats below this are written with one decimal. -/
def pointLimit : Nat := Nat.pow 10 15

/-- The sign that a negative number is written with. -/
def signText : Sign → List Char
  | .negative => ['-']
  | .positive => []

open Float.Model in
/-- The text of a float: whole ones below the limit with one decimal, others
with the fewest digits that read back, never with an exponent. -/
def floatText (f : Float) : String :=
  match unpack f with
  | .notANumber => "NaN"
  | .infinity s => String.ofList (signText s) ++ "Infinity"
  | .zero s => String.ofList (signText s) ++ "0.0"
  | .finite s m e _ =>
    let digits :=
      match integerBelow? pointLimit f with
      | some i => Nat.toDigits 10 i.natAbs ++ ['.', '0']
      | none =>
        let (n, p) := shortest m e
        positional n p
    String.ofList (signText s ++ digits)

end Stencil.Number
