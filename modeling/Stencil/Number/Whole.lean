/-
Whole numbers of 64 bits with exact arithmetic: an operation gives the
mathematical result when it is in range, and nothing otherwise.
-/
namespace Stencil.Number

/-- The number, if 64 bits hold it. -/
def whole? (n : Int) : Option Int64 :=
  if h : Int64.minValue.toInt ≤ n ∧ n ≤ Int64.maxValue.toInt
  then some (Int64.ofIntLE n h.1 h.2)
  else none

theorem whole?_eq_some {n : Int} {i : Int64} :
    whole? n = some i ↔ i.toInt = n := by
  unfold whole?
  split
  · next h =>
    simp only [Option.some.injEq]
    constructor
    · rintro rfl
      exact Int64.toInt_ofIntLE
    · rintro rfl
      exact Int64.ofIntLE_toInt i
  · next h =>
    simp only [reduceCtorEq, false_iff]
    rintro rfl
    exact h ⟨Int64.minValue_le_toInt i, Int64.toInt_le i⟩

theorem whole?_eq_none {n : Int} :
    whole? n = none ↔
      ¬ (Int64.minValue.toInt ≤ n ∧ n ≤ Int64.maxValue.toInt) := by
  unfold whole?
  split
  · next h => exact ⟨nofun, fun g => absurd h g⟩
  · next h => exact ⟨fun _ => h, fun _ => rfl⟩

def add? (i j : Int64) : Option Int64 := whole? (i.toInt + j.toInt)

def sub? (i j : Int64) : Option Int64 := whole? (i.toInt - j.toInt)

def mul? (i j : Int64) : Option Int64 := whole? (i.toInt * j.toInt)

def neg? (i : Int64) : Option Int64 := whole? (-i.toInt)

/-- The remainder of the quotient truncated toward zero. It is out of range
with the quotient: for the least number over -1. -/
def rem? (i j : Int64) : Option Int64 :=
  (whole? (i.toInt.tdiv j.toInt)).bind fun _ => whole? (i.toInt.tmod j.toInt)

/-- The number in decimal. -/
def text (i : Int64) : String := toString i.toInt

end Stencil.Number
