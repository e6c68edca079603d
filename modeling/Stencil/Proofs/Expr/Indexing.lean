/-
Floats as positions in arrays.

A finite float is an integer just in case its units, of which 2^1074 make one, are
a multiple of that. With an exponent that is not negative they always are, and a
negative one takes as many bits from the mantissa, which have to be zero
(`integer?_eq_some_iff`). A float is converted to the integer that it is if the
magnitude of that is below 2^63. Above, this is what 64 bits hold; below, the least
whole number is left out with all that they do not hold (`Convertible`), and so it
is no position, not even one before the first.
-/
import Mathlib.Algebra.Ring.Int.Defs
import Stencil.Proofs.Expr.Arithmetic
import Stencil.Proofs.Number.Moving

namespace Stencil.Number

open Float.Model (UnpackedFloat)
open Float.Model.UnpackedFloat (Sign)

variable {x : Float} {n : Int} {m : Nat} {e : Int}

-- ================================================================== integers

/-- The float is finite, and it is that integer. -/
def Denotes (x : Float) (n : Int) : Prop :=
  isFinite x = true ∧ position x = n * 2 ^ 1074

/-- With an exponent that is not negative a number is an integer. -/
theorem magnitude_eq_iff_of_nonneg (he : 0 ≤ e) (k : Int) :
    (magnitude m e : Int) = k * 2 ^ 1074 ↔ (m : Int) * 2 ^ e.toNat = k := by
  have hexponent : (e + 1074).toNat = e.toNat + 1074 := by omega
  rw [natCast_magnitude, hexponent, Int.pow_add, ← Int.mul_assoc]
  exact Int.mul_eq_mul_right_iff (Int.pow_ne_zero (by decide))

/-- With a negative exponent as many bits of its mantissa are zero. -/
theorem magnitude_eq_iff_of_neg (hlow : -1074 ≤ e) (he : e < 0) (k : Int) :
    (magnitude m e : Int) = k * 2 ^ 1074 ↔ (m : Int) = k * 2 ^ (-e).toNat := by
  have hpow : (2 : Int) ^ 1074 = 2 ^ (-e).toNat * 2 ^ (e + 1074).toNat := by
    rw [← Int.pow_add]
    congr 1
    omega
  rw [natCast_magnitude, hpow, ← Int.mul_assoc]
  exact Int.mul_eq_mul_right_iff (Int.pow_ne_zero (by decide))

theorem apply_eq_iff (s : Sign) {k n : Int} : s.apply k = n ↔ k = s.apply n := by
  cases s with
  | positive => exact Iff.rfl
  | negative =>
    show -k = n ↔ k = -n
    omega

theorem apply_mul (s : Sign) (n k : Int) : s.apply (n * k) = s.apply n * k := by
  cases s with
  | positive => rfl
  | negative => exact (Int.neg_mul n k).symm

/-- An exact quotient, and when there is one. -/
theorem quotient_eq_iff {unit : Nat} (hunit : 0 < unit) (k : Int) :
    (m : Int) = k * unit ↔ m % unit = 0 ∧ ((m / unit : Nat) : Int) = k := by
  constructor
  · intro h
    have hdvd : (unit : Int) ∣ m := h ▸ Int.dvd_mul_left k unit
    refine ⟨Nat.mod_eq_zero_of_dvd (Int.natCast_dvd_natCast.1 hdvd), ?_⟩
    rw [Int.natCast_ediv, h]
    exact Int.mul_ediv_cancel k (by omega)
  · rintro ⟨hmod, rfl⟩
    rw [← Int.natCast_mul, Nat.div_mul_cancel (Nat.dvd_of_mod_eq_zero hmod)]

/-- The integer that a float is recognized as is the one that it is. -/
theorem integer?_eq_some_iff : integer? x = some n ↔ Denotes x n := by
  unfold integer? Denotes isFinite position
  rcases unpack_cases x with ⟨s, hu⟩ | hu | ⟨hu, -⟩
  · rw [hu]
    exact iff_of_false nofun nofun
  · rw [hu]
    exact iff_of_false nofun nofun
  generalize unpack x = u at hu
  cases hu with
  | zero s =>
    show some 0 = some n ↔ true = true ∧ 0 = n * 2 ^ 1074
    have hpow : (2 : Int) ^ 1074 ≠ 0 := Int.pow_ne_zero (by decide)
    rw [Option.some_inj, eq_comm (a := 0) (b := n * _), Int.mul_eq_zero]
    simp only [hpow, or_false, true_and, eq_comm]
  | @finite m e s h canonical =>
    dsimp only
    rw [units_finite, apply_eq_iff, apply_mul]
    simp only [true_and]
    split
    · next he =>
      rw [magnitude_eq_iff_of_nonneg he, Option.some_inj, apply_eq_iff,
        Int.natCast_mul]
      exact Iff.rfl
    · next he =>
      -- the exponent divides, and nothing may be left over
      have quotient := quotient_eq_iff (m := m)
        (Nat.two_pow_pos (-e).toNat) (s.apply n)
      rw [Int.natCast_pow] at quotient
      refine Iff.trans ?_ ((magnitude_eq_iff_of_neg canonical.exponent
        (Int.not_le.1 he) _).trans quotient).symm
      split
      · next hmod =>
        rw [Option.some_inj, apply_eq_iff]
        exact (and_iff_right hmod).symm
      · next hmod => exact iff_of_false nofun fun h => hmod h.1

end Stencil.Number

namespace Stencil.Expr

open Number (Denotes)

variable {env : Environment} {a t : Term} {items : List Value} {f : Float}
  {i : Int64} {n : Int}

-- ================================================================ conversion

/-- The float is an integer that 64 bits hold, and not the least of them. -/
def Convertible (f : Float) (n : Int) : Prop :=
  Denotes f n ∧ Held n ∧ n ≠ -2 ^ 63

theorem whole?_float :
    Value.Numeric.whole? (.float f) = some i ↔ Convertible f i.toInt := by
  have hlimit : Value.wholeLimit = 2 ^ 63 := rfl
  have hheld : Held i.toInt := held_toInt i
  unfold Value.Numeric.whole? Number.integerBelow? Convertible
  simp only [Option.bind_eq_some_iff, Option.filter_eq_some_iff,
    Number.integer?_eq_some_iff, Number.whole?_eq_some, decide_eq_true_eq,
    hlimit]
  unfold Held at hheld ⊢
  constructor
  · rintro ⟨n, ⟨hn, hless⟩, rfl⟩
    exact ⟨hn, hheld, by omega⟩
  · rintro ⟨hn, -, hleast⟩
    exact ⟨_, ⟨hn, by omega⟩, rfl⟩

theorem asInt_float :
    (Value.float f).asInt = .ok i ↔ Convertible f i.toInt := by
  rw [← whole?_float]
  unfold Value.asInt
  simp only [Value.number?, Option.bind_some]
  cases Value.Numeric.whole? (.float f) with
  | none => exact iff_of_false nofun nofun
  | some j => rw [Except.ok.injEq, Option.some_inj]

/-- A float that is no such integer has no whole number. -/
theorem asInt_float_error (h : ¬ ∃ n, Convertible f n) :
    (Value.float f).asInt = .error (.coercion .float .integer) := by
  have hnone : Value.Numeric.whole? (.float f) = none :=
    Option.eq_none_iff_forall_ne_some.2 fun i hi => h ⟨_, whole?_float.1 hi⟩
  unfold Value.asInt
  simp only [Value.number?, Option.bind_some, hnone]
  rfl

theorem Convertible.exists_asInt (h : Convertible f n) :
    ∃ i : Int64, i.toInt = n ∧ (Value.float f).asInt = .ok i := by
  obtain ⟨i, rfl, -⟩ := exists_whole_of_held h.2.1
  exact ⟨i, rfl, asInt_float.2 h⟩

-- ================================================================== positions

/-- What a position selects in a list: the item there, and null if there is
none. -/
structure Selects (items : List Value) (n : Int)
    (outcome : Except Error Value) : Prop where
  item : ∀ k : Nat, n = k → ∀ h : k < items.length, outcome = .ok items[k]
  beyond : n < 0 ∨ items.length ≤ n → outcome = .ok .null

theorem selects_itemAt (items : List Value) (i : Int64) :
    Selects items i.toInt (.ok (Value.itemAt items i)) where
  item k hk h := by
    have hposition : i.toInt.toNat = k := by omega
    unfold Value.itemAt
    rw [if_pos (by omega), hposition, List.getElem?_eq_getElem h,
      Option.getD_some]
  beyond h := by
    unfold Value.itemAt
    split
    · rw [List.getElem?_eq_none (by omega), Option.getD_none]
    · rfl

/-- An array is indexed by the whole number that the index is. -/
theorem eval_index (ha : a.eval env = .ok (.array items))
    (ht : t.eval env = .ok (.float f)) :
    (Term.index a t).eval env
      = (Value.float f).asInt >>= fun i => .ok (Value.itemAt items i) := by
  rw [Term.eval, ha, ht]
  rfl

-- ================================================================ main result

/-- A float is converted to the integer that it is, if 64 bits hold that and it is
not the least of all, and else it is refused. In the same cases an array has an
item at it, or null behind the last and before the first, however the two come
about. -/
theorem float_positions_exact (f : Float) :
    (∀ i : Int64, (Value.float f).asInt = .ok i ↔ Convertible f i.toInt)
    ∧ ((¬ ∃ n, Convertible f n) →
      (Value.float f).asInt = .error (.coercion .float .integer))
    ∧ ∀ env a t items, Term.eval env a = .ok (.array items) →
      Term.eval env t = .ok (.float f) →
      (∀ n, Convertible f n →
        Selects items n ((Term.index a t).eval env))
      ∧ ((¬ ∃ n, Convertible f n) →
        (Term.index a t).eval env = .error (.coercion .float .integer)) := by
  refine ⟨fun i => asInt_float, asInt_float_error, ?_⟩
  intro env a t items ha ht
  rw [eval_index ha ht]
  constructor
  · intro n h
    obtain ⟨i, rfl, hi⟩ := h.exists_asInt
    rw [hi]
    exact selects_itemAt items i
  · intro h
    rw [asInt_float_error h]
    rfl

/-- One float that all names stand for. -/
def floatEverywhere (f : Float) : Environment :=
  ⟨fun _ => some (.float f), fun _ => none, fun _ => none⟩

/-- The least integer that a float is converted to, and a position that is no
integer. -/
theorem float_positions_exact_lowest :
    let lowest := Number.ofWhole (Int64.minValue + 1024)
    let half := Number.round .positive 1 (-1)
    let a := Term.array [.literal (.string "p"), .literal .null]
    let outcome f := (Term.index a (.variable "x")).eval (floatEverywhere f)
    Convertible lowest (-2 ^ 63 + 1024) ∧ outcome lowest = .ok .null
    ∧ (¬ ∃ n, Convertible half n)
    ∧ outcome half = .error (.coercion .float .integer) := by
  intro lowest half a outcome
  have hlowest : Convertible lowest (-2 ^ 63 + 1024) :=
    ⟨Number.integer?_eq_some_iff.1 (by decide +kernel), by decide, by decide⟩
  have hhalf : ¬ ∃ n, Convertible half n := by
    rintro ⟨n, hn, -⟩
    have hnone : Number.integer? half = none := by decide +kernel
    rw [← Number.integer?_eq_some_iff, hnone] at hn
    cases hn
  obtain ⟨-, -, picked⟩ := float_positions_exact lowest
  obtain ⟨-, -, refused⟩ := float_positions_exact half
  have before := (picked (floatEverywhere lowest) a (.variable "x")
    [.string "p", .null] rfl rfl).1 _ hlowest
  exact ⟨hlowest, before.beyond (.inl (by decide)), hhalf,
    (refused (floatEverywhere half) a (.variable "x")
      [.string "p", .null] rfl rfl).2 hhalf⟩

/-- The least whole number is a float too, and as one it is refused. Its text is
not. -/
theorem least_position_refused :
    let least := Number.ofWhole Int64.minValue
    let a := Term.array [.literal (.string "p")]
    Denotes least (-2 ^ 63) ∧ Held (-2 ^ 63)
    ∧ (Value.float least).asInt = .error (.coercion .float .integer)
    ∧ (Term.index a (.variable "x")).eval (floatEverywhere least)
      = .error (.coercion .float .integer)
    ∧ (Value.string "-9223372036854775808").asInt = .ok Int64.minValue := by
  intro least a
  have hinteger : Number.integer? least = some (-2 ^ 63) := by decide +kernel
  have hrefused : (Value.float least).asInt
      = .error (.coercion .float .integer) := by
    refine asInt_float_error ?_
    rintro ⟨n, hn, -, hleast⟩
    rw [← Number.integer?_eq_some_iff, hinteger, Option.some_inj] at hn
    exact hleast hn.symm
  have hindex : (Term.index a (.variable "x")).eval (floatEverywhere least)
      = .error (.coercion .float .integer) := by
    rw [eval_index (a := a) (t := .variable "x") (f := least) rfl rfl, hrefused]
    rfl
  exact ⟨Number.integer?_eq_some_iff.1 hinteger, by decide, hrefused, hindex,
    by with_unfolding_all rfl⟩

end Stencil.Expr
