/-
Rounding to 64 bits keeps the order.

A finite float is a mantissa of no more than 53 bits times a power of two. In
units of the least positive float all of them are whole numbers (`magnitude`),
and so is the sum of any two. Such a number is rounded to the nearest float, and
which one that is among equals does not matter here: no float lies strictly
between a number and what it is rounded to (`round_between`).
-/
import Mathlib.Algebra.Group.Int.Defs
import Mathlib.Algebra.Group.Nat.Defs
import Stencil.Number.Binary64

namespace Stencil.Number

open Float.Model
open Float.Model.UnpackedFloat

-- ================================================================ magnitudes

/-- Mantissa and exponent of a float that is not zero, with all the bits that
it has room for. The exponent may be too large. -/
structure Canonical (m : Nat) (e : Int) : Prop where
  mantissa : m < 2 ^ 53
  exponent : -1074 ≤ e
  leading : 2 ^ 52 ≤ m ∨ e = -1074

/-- A number as a multiple of the least positive float. -/
def magnitude (m : Nat) (e : Int) : Nat := m * 2 ^ (e + 1074).toNat

theorem magnitude_add (m : Nat) {e : Int} (he : -1074 ≤ e) (k : Nat) :
    magnitude m (e + k) = magnitude (m * 2 ^ k) e := by
  unfold magnitude
  rw [show (e + k + 1074).toNat = k + (e + 1074).toNat by omega, Nat.pow_add,
    Nat.mul_assoc]

theorem magnitude_lt {m n : Nat} (e : Int) :
    magnitude m e < magnitude n e ↔ m < n :=
  Nat.mul_lt_mul_right (Nat.two_pow_pos _)

theorem magnitude_le {m n : Nat} (e : Int) :
    magnitude m e ≤ magnitude n e ↔ m ≤ n :=
  Nat.mul_le_mul_right_iff (Nat.two_pow_pos _)

section

variable {m n : Nat} {e d : Int}

/-- A larger exponent makes a larger number. -/
theorem Canonical.magnitude_lt (h : Canonical m e) (h' : Canonical n d)
    (hlt : e < d) : magnitude m e < magnitude n d := by
  have leading : 2 ^ 52 ≤ n := h'.leading.resolve_right (by
    have := h.exponent
    omega)
  obtain ⟨k, rfl⟩ : ∃ k : Nat, d = e + (k + 1 : Nat) :=
    ⟨(d - e - 1).toNat, by omega⟩
  rw [magnitude_add n h.exponent, Number.magnitude_lt]
  calc m < 2 ^ 53 := h.mantissa
    _ ≤ n * 2 ^ 1 := by omega
    _ ≤ n * 2 ^ (k + 1) := by
      exact Nat.mul_le_mul_left n (Nat.pow_le_pow_right (by omega) (by omega))

/-- Numbers are ordered by their exponents first, and then by their
mantissas. -/
theorem Canonical.magnitude_lt_iff (h : Canonical m e) (h' : Canonical n d) :
    magnitude m e < magnitude n d ↔ e < d ∨ e = d ∧ m < n := by
  rcases Int.lt_trichotomy e d with hlt | rfl | hgt
  · exact iff_of_true (h.magnitude_lt h' hlt) (.inl hlt)
  · rw [Number.magnitude_lt]
    omega
  · have := h'.magnitude_lt h hgt
    exact iff_of_false (by omega) (by omega)

theorem Canonical.magnitude_inj (h : Canonical m e) (h' : Canonical n d)
    (heq : magnitude m e = magnitude n d) : m = n ∧ e = d := by
  have less := h.magnitude_lt_iff h'
  have more := h'.magnitude_lt_iff h
  omega

end

-- ================================================================= rounding

theorem shiftRight_succ (em : ExtendedMantissa) (k : Nat) :
    em >>> (k + 1) = (em >>> k).shiftRightOne := rfl

theorem shiftRight_mantissa (em : ExtendedMantissa) (k : Nat) :
    (em >>> k).mantissa = em.mantissa / 2 ^ k := by
  induction k with
  | zero => exact (Nat.div_one _).symm
  | succ k ih =>
    show (em >>> k).mantissa / 2 = _
    rw [ih, Nat.div_div_eq_div_mul, Nat.pow_succ]

/-- No residue is left of a multiple. -/
theorem shiftRight_multiple (n k : Nat) :
    (⟨n * 2 ^ k, false, false⟩ : ExtendedMantissa) >>> k
      = ⟨n, false, false⟩ := by
  induction k generalizing n with
  | zero => rw [Nat.pow_zero, Nat.mul_one]; rfl
  | succ k ih =>
    rw [Nat.pow_succ', ← Nat.mul_assoc, shiftRight_succ, ih]
    unfold ExtendedMantissa.shiftRightOne
    rw [Nat.mul_div_left n (by omega), Nat.mul_mod_left]
    rfl

/-- The whole number that a part of a mantissa is rounded to. -/
def rounded (m k : Nat) : Nat :=
  ((⟨m, false, false⟩ : ExtendedMantissa) >>> k).roundedMantissa

theorem roundedMantissa_bounds (em : ExtendedMantissa) :
    em.mantissa ≤ em.roundedMantissa
      ∧ em.roundedMantissa ≤ em.mantissa + 1 := by
  obtain ⟨m, r, s⟩ := em
  cases r <;> cases s <;>
    simp only [ExtendedMantissa.roundedMantissa, ExtendedMantissa.accuracy,
      Accuracy.roundToNearestEven] <;> omega

theorem le_rounded {m n k : Nat} (h : n * 2 ^ k ≤ m) : n ≤ rounded m k := by
  refine Nat.le_trans ?_ (roundedMantissa_bounds _).1
  rw [shiftRight_mantissa]
  exact (Nat.le_div_iff_mul_le (Nat.two_pow_pos k)).2 h

theorem rounded_multiple (n k : Nat) : rounded (n * 2 ^ k) k = n := by
  unfold rounded
  rw [shiftRight_multiple]
  rfl

theorem rounded_le {m n k : Nat} (h : m ≤ n * 2 ^ k) : rounded m k ≤ n := by
  rcases Nat.lt_or_eq_of_le h with hlt | rfl
  · refine Nat.le_trans (roundedMantissa_bounds _).2 ?_
    rw [shiftRight_mantissa]
    exact (Nat.div_lt_iff_lt_mul (Nat.two_pow_pos k)).2 hlt
  · exact Nat.le_of_eq (rounded_multiple n k)

theorem targetExponent_eq (m : Nat) (e : Int) :
    Format.binary64.targetExponent (totalExponent m e)
      = max (m.log2 + 1 + e - 53) (-1074) := by
  unfold Format.targetExponent totalExponent
  rfl

/-- How many bits a mantissa is too long. -/
theorem exists_excess {m : Nat} {e : Int} (hm : 0 < m) (he : -1074 ≤ e)
    (hle : e ≤ Format.binary64.targetExponent (totalExponent m e)) :
    ∃ k : Nat, Format.binary64.targetExponent (totalExponent m e) = e + k
      ∧ m < 2 ^ 53 * 2 ^ k ∧ (2 ^ 52 * 2 ^ k ≤ m ∨ k = 0 ∧ e = -1074) := by
  have low := Nat.log2_self_le (Nat.ne_of_gt hm)
  have high := @Nat.lt_log2_self m
  rw [targetExponent_eq] at hle ⊢
  generalize m.log2 = l at *
  by_cases hl : 52 ≤ l
  · obtain ⟨k, rfl⟩ := Nat.exists_eq_add_of_le hl
    refine ⟨k, by omega, ?_, .inl ?_⟩
    · rwa [← Nat.pow_add, show 53 + k = 52 + k + 1 by omega]
    · rwa [← Nat.pow_add]
  · refine ⟨0, by omega, ?_, .inr ⟨rfl, by omega⟩⟩
    rw [Nat.pow_zero, Nat.mul_one]
    exact Nat.lt_of_lt_of_le high
      (Nat.pow_le_pow_right (by decide) (by omega))

/-- A mantissa that rounding has made too long by a bit loses it again. -/
theorem shift_carry {n : Nat} {d : Int} (hn : 0 < n) (hle : n ≤ 2 ^ 53)
    (hd : -1074 ≤ d) (hlead : 2 ^ 52 ≤ n ∨ d = -1074) :
    ∃ n' d', shiftToTargetExponent .binary64 n d .exact
        = (⟨n', false, false⟩, d')
      ∧ Canonical n' d' ∧ magnitude n' d' = magnitude n d := by
  unfold shiftToTargetExponent shiftToExponent
  rw [targetExponent_eq]
  rcases Nat.lt_or_eq_of_le hle with hlt | rfl
  · have hlog := (Nat.log2_lt (Nat.ne_of_gt hn)).2 hlt
    have hzero : (max (n.log2 + 1 + d - 53) (-1074) - d).toNat = 0 := by omega
    refine ⟨n, d, ?_, ⟨hlt, hd, hlead⟩, rfl⟩
    dsimp only
    rw [hzero]
    exact Prod.ext rfl (Int.add_zero d)
  · have hone :
        (max ((2 ^ 53).log2 + 1 + d - 53) (-1074) - d).toNat = 1 := by
      rw [Nat.log2_two_pow]
      omega
    refine ⟨2 ^ 52, d + (1 : Nat), ?_, ⟨by omega, by omega, .inl (by omega)⟩,
      magnitude_add _ hd 1⟩
    dsimp only
    rw [hone]
    rfl

/-- What a number with no bits missing is rounded to. -/
theorem roundWithAccuracy_eq (s : Sign) {m k : Nat} {e : Int} (hm : 0 < m)
    (he : -1074 ≤ e)
    (ht : Format.binary64.targetExponent (totalExponent m e) = e + k)
    (hless : m < 2 ^ 53 * 2 ^ k)
    (hlead : 2 ^ 52 * 2 ^ k ≤ m ∨ k = 0 ∧ e = -1074) :
    ∃ n d h, roundWithAccuracy .binary64 s m e .exact = .finite s n d h
      ∧ Canonical n d ∧ magnitude n d = magnitude (rounded m k) (e + k) := by
  -- the mantissa is shifted to the target, and what drops out is rounded
  have first : shiftToTargetExponent .binary64 m e .exact
      = ((⟨m, false, false⟩ : ExtendedMantissa) >>> k, e + k) := by
    have hk : (e + k - e).toNat = k := by omega
    unfold shiftToTargetExponent shiftToExponent
    rw [ht]
    dsimp only
    rw [hk]
    rfl
  have hlead' : 2 ^ 52 ≤ rounded m k ∨ e + k = -1074 :=
    hlead.imp le_rounded fun h => by omega
  have hpos : 0 < rounded m k := by
    rcases hlead with h | ⟨rfl, -⟩
    · have := le_rounded h
      omega
    · exact le_rounded (n := 1) (by omega)
  -- rounding up may carry into one more bit, which is shifted out again
  obtain ⟨n, d, second, canonical, hmagnitude⟩ :=
    shift_carry hpos (rounded_le (Nat.le_of_lt hless)) (by omega) hlead'
  have hn : 0 < n := by
    refine Nat.pos_of_ne_zero fun hzero => ?_
    subst hzero
    have := (magnitude_lt (e + k)).2 hpos
    unfold magnitude at hmagnitude this
    omega
  refine ⟨n, d, hn, ?_, canonical, hmagnitude⟩
  unfold rounded at second
  unfold roundWithAccuracy
  rw [first]
  dsimp only
  rw [second]
  exact dif_neg (Nat.ne_of_gt hn)

/-- No float is strictly between a number and what it is rounded to. -/
theorem rounded_between {m k p : Nat} {e c : Int} (he : -1074 ≤ e)
    (hlead : 2 ^ 52 * 2 ^ k ≤ m ∨ k = 0 ∧ e = -1074) (h : Canonical p c) :
    (magnitude p c ≤ magnitude m e →
      magnitude p c ≤ magnitude (rounded m k) (e + k))
    ∧ (magnitude m e ≤ magnitude p c →
      magnitude (rounded m k) (e + k) ≤ magnitude p c) := by
  have hlow := h.exponent
  rcases Int.lt_or_le c (e + k) with hlt | hle
  · -- the number is normal, and so it is larger than any of exponent `c`
    have hm : 2 ^ 52 * 2 ^ k ≤ m := hlead.resolve_right (by omega)
    have least : Canonical (2 ^ 52) (e + k) :=
      ⟨by decide, by omega, .inl (Nat.le_refl _)⟩
    have larger := h.magnitude_lt least hlt
    have exact := (magnitude_le e).2 hm
    have rounded := (magnitude_le (e + k)).2 (le_rounded hm)
    rw [← magnitude_add _ he] at exact
    constructor <;> intro <;> omega
  -- at this exponent the number is a multiple of the last place kept
  · obtain ⟨j, rfl⟩ : ∃ j : Nat, c = e + k + j :=
      ⟨(c - (e + k)).toNat, by omega⟩
    rw [magnitude_add p (by omega) j, magnitude_add (p * 2 ^ j) he k]
    constructor
    · intro hle
      have := le_rounded ((magnitude_le e).1 hle)
      rw [← magnitude_add _ he]
      exact (magnitude_le (e + k)).2 this
    · intro hle
      have := rounded_le ((magnitude_le e).1 hle)
      rw [← magnitude_add _ he]
      exact (magnitude_le (e + k)).2 this

theorem log2_mul_two_pow {m : Nat} (hm : 0 < m) (j : Nat) :
    (m * 2 ^ j).log2 = m.log2 + j := by
  have hne := Nat.ne_of_gt hm
  refine (Nat.log2_eq_iff (Nat.ne_of_gt (Nat.mul_pos hm
    (Nat.two_pow_pos j)))).2 ⟨?_, ?_⟩
  · rw [Nat.pow_add]
    exact Nat.mul_le_mul_right _ (Nat.log2_self_le hne)
  · rw [show m.log2 + j + 1 = m.log2 + 1 + j by omega, Nat.pow_add]
    exact Nat.mul_lt_mul_of_pos_right Nat.lt_log2_self (Nat.two_pow_pos j)

/-- A positive number is rounded to a float. No other one is strictly between
the two. -/
theorem round_between (s : Sign) {m : Nat} {e : Int} (hm : 0 < m)
    (he : -1074 ≤ e) :
    ∃ n d h, UnpackedFloat.round .binary64 s m e = .finite s n d h
      ∧ Canonical n d ∧ ∀ p c, Canonical p c →
        (magnitude p c ≤ magnitude m e → magnitude p c ≤ magnitude n d)
        ∧ (magnitude m e ≤ magnitude p c →
          magnitude n d ≤ magnitude p c) := by
  let target := Format.binary64.targetExponent (totalExponent m e)
  let j := (e - target).toNat
  have htarget : -1074 ≤ target := by
    show -1074 ≤ Format.binary64.targetExponent _
    rw [targetExponent_eq]
    omega
  -- bits that are missing are filled in first
  have hm' : 0 < m * 2 ^ j := Nat.mul_pos hm (Nat.two_pow_pos j)
  have he' : -1074 ≤ e - j := by omega
  have filled : magnitude (m * 2 ^ j) (e - j) = magnitude m e := by
    rw [← magnitude_add m he', Int.sub_add_cancel]
  have same : Format.binary64.targetExponent
      (totalExponent (m * 2 ^ j) (e - j)) = target := by
    show _ = Format.binary64.targetExponent _
    unfold totalExponent
    rw [log2_mul_two_pow hm]
    congr 1
    omega
  obtain ⟨k, ht, hless, hlead⟩ := exists_excess hm' he' (by omega)
  obtain ⟨n, d, h, hround, canonical, hmagnitude⟩ :=
    roundWithAccuracy_eq s hm' he' ht hless hlead
  refine ⟨n, d, h, ?_, canonical, fun p c hp => ?_⟩
  · rw [← hround]
    unfold UnpackedFloat.round decreaseExponent
    dsimp only
    rw [Nat.shiftLeft_eq]
  · rw [hmagnitude, ← filled]
    exact rounded_between he' hlead hp

end Stencil.Number
