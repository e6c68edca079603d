/-
Floating numbers of 64 bits seen as exact values: a finite one is a sign, a
mantissa and a power of two, and what is computed here is computed on those.
-/
namespace Stencil.Number

open Float.Model (UnpackedFloat Format)
open Float.Model.UnpackedFloat (Sign)

/-- Sign, mantissa and exponent of a float, or what it is instead. -/
def unpack (f : Float) : UnpackedFloat := f.toModel.unpack

/-- The float nearest to an exact value. -/
def round (s : Sign) (mantissa : Nat) (exponent : Int) : Float :=
  .ofModel (.pack (UnpackedFloat.round Format.binary64 s mantissa exponent))

def ofWhole (i : Int64) : Float := .ofModel (.ofInt64 i)

def notANumber : Float := .ofModel (.pack .notANumber)

def infinity (negative : Bool) : Float :=
  .ofModel (.pack (.infinity (if negative then .negative else .positive)))

def isFinite (f : Float) : Bool :=
  match unpack f with
  | .zero _ => true
  | .finite .. => true
  | _ => false

/-- The integer that a finite float is, if it is one. -/
def integer? (f : Float) : Option Int :=
  match unpack f with
  | .zero _ => some 0
  | .finite s m e _ =>
    if 0 ≤ e then some (s.apply (m * Nat.pow 2 e.toNat : Nat))
    else
      let unit := Nat.pow 2 (-e).toNat
      if m % unit = 0 then some (s.apply (m / unit : Nat)) else none
  | _ => none

/-- The integer that a float is, when its magnitude is below the limit. -/
def integerBelow? (limit : Nat) (f : Float) : Option Int :=
  (integer? f).filter fun i => i.natAbs < limit

/-- The remainder of the quotient truncated toward zero, exactly; it has the
sign of the dividend. -/
def remainder (x y : Float) : Float :=
  match unpack x, unpack y with
  | .zero _, .finite .. => x
  | .zero _, .infinity _ => x
  | .finite .., .infinity _ => x
  | .finite s m e _, .finite _ n d _ =>
    let unit := min e d
    let r := (m * Nat.pow 2 (e - unit).toNat) % (n * Nat.pow 2 (d - unit).toNat)
    if r = 0 then .ofModel (.pack (.zero s)) else round s r unit
  | _, _ => notANumber

/-- The order of two floats, if neither is a NaN. -/
def compareFloats (x y : Float) : Option Ordering :=
  if x < y then some .lt
  else if y < x then some .gt
  else if x == y then some .eq
  else none

end Stencil.Number
