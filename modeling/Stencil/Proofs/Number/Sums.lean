/-
Sums of floats.

In units of the least positive float a finite one is a whole number (`units`),
and floats are compared as their units are. The sum of two is rounded, and no
float is strictly between the two (`between_add`). So what is added to a float
moves it in the right direction, if it moves it at all (`add_moves`). It may be
too small for that.
-/
import Stencil.Proofs.Number.Packing

namespace Stencil.Number

open Float.Model
open Float.Model.UnpackedFloat

/-- A finite number as a multiple of the least positive float. -/
def units : UnpackedFloat → Int
  | .finite s m e _ => s.apply (magnitude m e)
  | _ => 0

section

variable {s : Sign} {m n : Nat} {e d : Int} {u v w : UnpackedFloat}

theorem magnitude_pos (hm : 0 < m) (e : Int) : 0 < magnitude m e :=
  Nat.mul_pos hm (Nat.two_pow_pos _)

theorem units_finite (s : Sign) (m : Nat) (e : Int) (h : 0 < m) :
    units (.finite s m e h) = s.apply (magnitude m e) := rfl

theorem units_positive (h : 0 < m) (e : Int) :
    0 < units (.finite .positive m e h) :=
  Int.natCast_pos.2 (magnitude_pos h e)

theorem units_negative (h : 0 < m) (e : Int) :
    units (.finite .negative m e h) < 0 :=
  Int.neg_neg_of_pos (units_positive h e)

-- ================================================================ comparing

/-- How whole numbers are ordered. -/
def ordering (x y : Int) : Ordering :=
  if x < y then .lt else if y < x then .gt else .eq

theorem ordering_lt {x y : Int} : ordering x y = .lt ↔ x < y := by
  unfold ordering
  split
  · exact iff_of_true rfl ‹_›
  · split <;> exact iff_of_false nofun ‹_›

theorem ordering_gt {x y : Int} : ordering x y = .gt ↔ y < x := by
  unfold ordering
  split
  · exact iff_of_false nofun (by omega)
  · split
    · exact iff_of_true rfl ‹_›
    · exact iff_of_false nofun ‹_›

theorem ordering_eq {x y : Int} : ordering x y = .eq ↔ x = y := by
  unfold ordering
  split
  · exact iff_of_false nofun (by omega)
  · split
    · exact iff_of_false nofun (by omega)
    · exact iff_of_true rfl (by omega)

theorem ordering_swap (x y : Int) : (ordering x y).swap = ordering y x := by
  rcases Int.lt_trichotomy x y with h | rfl | h
  · rw [ordering_lt.2 h, ordering_gt.2 h]
    rfl
  · rw [ordering_eq.2 rfl]
    rfl
  · rw [ordering_gt.2 h, ordering_lt.2 h]
    rfl

theorem ordering_neg (x y : Int) : ordering (-x) (-y) = ordering y x := by
  unfold ordering
  simp only [Int.neg_lt_neg_iff]

theorem compare_positive {h : 0 < m} {h' : 0 < n} (hm : Canonical m e)
    (hn : Canonical n d) :
    UnpackedFloat.compare (.finite .positive m e h) (.finite .positive n d h')
      = some (ordering (magnitude m e) (magnitude n d)) := by
  have less := hm.magnitude_lt_iff hn
  have more := hn.magnitude_lt_iff hm
  unfold UnpackedFloat.compare
  refine congrArg some ?_
  rcases Int.lt_trichotomy e d with he | rfl | he
  · rw [Int.compare_eq_lt.2 he, ordering_lt.2 (by omega)]
    rfl
  · rw [Int.compare_eq_eq.2 rfl]
    rcases Nat.lt_trichotomy m n with hlt | rfl | hgt
    · rw [Nat.compare_eq_lt.2 hlt, ordering_lt.2 (by omega)]
      rfl
    · rw [Nat.compare_eq_eq.2 rfl, ordering_eq.2 rfl]
      rfl
    · rw [Nat.compare_eq_gt.2 hgt, ordering_gt.2 (by omega)]
      rfl
  · rw [Int.compare_eq_gt.2 he, ordering_gt.2 (by omega)]
    rfl

/-- Floats are compared as their units are. -/
theorem compare_proper (hu : Proper u) (hv : Proper v) :
    u.compare v = some (ordering (units u) (units v)) := by
  have less {x y : Int} (h : x < y) :
      some Ordering.lt = some (ordering x y) := by rw [ordering_lt.2 h]
  have more {x y : Int} (h : y < x) :
      some Ordering.gt = some (ordering x y) := by rw [ordering_gt.2 h]
  cases hu with
  | zero s =>
    cases hv with
    | zero s' => rfl
    | @finite n d s' h' hn =>
      cases s' with
      | positive => exact less (units_positive h' d)
      | negative => exact more (units_negative h' d)
  | @finite m e s h hm =>
    cases hv with
    | zero s' =>
      cases s with
      | positive => exact more (units_positive h e)
      | negative => exact less (units_negative h e)
    | @finite n d s' h' hn =>
      cases s with
      | positive =>
        cases s' with
        | positive => exact compare_positive hm hn
        | negative =>
          exact more (Int.lt_trans (units_negative h' d) (units_positive h e))
      | negative =>
        cases s' with
        | positive =>
          exact less (Int.lt_trans (units_negative h e) (units_positive h' d))
        | negative =>
          -- of two negative numbers that with the greater magnitude is less
          have swapped : UnpackedFloat.compare (.finite .negative m e h)
                (.finite .negative n d h')
              = (UnpackedFloat.compare (.finite .positive m e h)
                (.finite .positive n d h')).map .swap := rfl
          rw [swapped, compare_positive hm hn]
          refine congrArg some ?_
          rw [ordering_swap, ← ordering_neg]
          rfl

-- =================================================================== rounding

/-- No float is strictly between a whole number of units and what it is rounded
to. -/
def Between (x : Int) (u : UnpackedFloat) : Prop :=
  Proper u ∧ ∀ v, Proper v →
    (units v ≤ x → units v ≤ units u) ∧ (x ≤ units v → units u ≤ units v)

theorem between_self (hu : Proper u) : Between (units u) u :=
  ⟨hu, fun _ _ => ⟨id, id⟩⟩

theorem between_zero (s : Sign) : Between 0 (.zero s) := between_self (.zero s)

theorem between_round (s : Sign) (hm : 0 < m) (he : -1074 ≤ e) :
    Between (s.apply (magnitude m e))
      (UnpackedFloat.round .binary64 s m e) := by
  obtain ⟨n, d, h, hround, canonical, between⟩ := round_between s hm he
  rw [hround]
  refine ⟨.finite _ h canonical, fun v hv => ?_⟩
  have hn := magnitude_pos h d
  have hm := magnitude_pos hm e
  cases hv with
  | zero s' =>
    rw [units_finite, show units (.zero s') = 0 from rfl]
    cases s <;> simp only [Sign.apply] <;> omega
  | @finite p c s' h' canonical' =>
    have hp := magnitude_pos h' c
    have between := between p c canonical'
    rw [units_finite, units_finite]
    cases s <;> cases s' <;> simp only [Sign.apply] <;> omega

theorem natCast_magnitude (m : Nat) (e : Int) :
    (magnitude m e : Int) = m * 2 ^ (e + 1074).toNat := by
  unfold magnitude
  rw [Int.natCast_mul, Int.natCast_pow]
  rfl

/-- A number with bits filled in for a lower exponent. -/
theorem apply_magnitude (s : Sign) (m : Nat) {c : Int} (hc : -1074 ≤ c)
    (hle : c ≤ e) :
    s.apply (magnitude m e)
      = s.apply (m <<< (e - c).toNat : Nat) * 2 ^ (c + 1074).toNat := by
  have same : magnitude m e = magnitude (m <<< (e - c).toNat) c := by
    rw [Nat.shiftLeft_eq, ← magnitude_add m hc]
    congr 1
    omega
  rw [same, natCast_magnitude]
  cases s with
  | positive => rfl
  | negative => exact (Int.neg_mul _ _).symm

/-- A multiple of a power of two is rounded. -/
theorem between_normalize (x : Int) (he : -1074 ≤ e) (s : Sign) :
    Between (x * 2 ^ (e + 1074).toNat)
      (UnpackedFloat.normalize .binary64 x e s) := by
  unfold UnpackedFloat.normalize
  rcases Int.lt_trichotomy x 0 with hlt | rfl | hgt
  · rw [Int.compare_eq_lt.2 hlt]
    have round := between_round .negative (m := (-x).toNat) (by omega) he
    rw [Sign.apply, natCast_magnitude, Int.toNat_of_nonneg (by omega),
      Int.neg_mul, Int.neg_neg] at round
    exact round
  · rw [Int.compare_eq_eq.2 rfl, Int.zero_mul]
    exact between_zero s
  · rw [Int.compare_eq_gt.2 hgt]
    have round := between_round .positive (m := x.toNat) (by omega) he
    rw [Sign.apply, natCast_magnitude, Int.toNat_of_nonneg (by omega)] at round
    exact round

/-- A sum is rounded. -/
theorem between_add (hu : Proper u) (hv : Proper v) :
    Between (units u + units v) (u.add .binary64 v) := by
  cases hu with
  | zero s =>
    cases hv with
    | zero s' =>
      show Between 0 (if s == s' then .zero s else .zero .positive)
      split <;> exact between_zero _
    | finite s' h' hn =>
      rw [show units (.zero s) = 0 from rfl, Int.zero_add]
      exact between_self (.finite s' h' hn)
  | @finite m e s h hm =>
    cases hv with
    | zero s' =>
      rw [show units (.zero s') = 0 from rfl, Int.add_zero]
      exact between_self (.finite s h hm)
    | @finite n d s' h' hn =>
      -- both are whole multiples at the lower exponent, and so is their sum
      have least : -1074 ≤ min e d := by
        have := hm.exponent
        have := hn.exponent
        omega
      show Between (s.apply (magnitude m e) + s'.apply (magnitude n d)) _
      rw [apply_magnitude s m least (by omega),
        apply_magnitude s' n least (by omega), ← Int.add_mul]
      exact between_normalize _ least .positive

theorem apply_neg (s : Sign) (x : Int) : (-s).apply x = -s.apply x := by
  cases s with
  | negative => exact (Int.neg_neg x).symm
  | positive => rfl

/-- A difference is the sum with the opposite. -/
theorem sub_eq_add_neg (u v : UnpackedFloat) :
    u.sub .binary64 v = u.add .binary64 v.neg := by
  cases u with
  | finite s m e h =>
    cases v with
    | finite s' n d h' =>
      refine congrArg
        (UnpackedFloat.normalize .binary64 · (min e d) .positive) ?_
      exact Int.sub_eq_add_neg.trans (congrArg _ (apply_neg s' _).symm)
    | _ => rfl
  | _ => cases v <;> rfl

theorem proper_neg (hu : Proper u) : Proper u.neg := by
  cases hu with
  | zero s => exact .zero _
  | finite s h canonical => exact .finite _ h canonical

theorem units_neg (u : UnpackedFloat) : units u.neg = -units u := by
  cases u with
  | finite s m e h => exact apply_neg s _
  | _ => rfl

-- ==================================================================== moving

theorem units_inj (hu : Proper u) (hv : Proper v) (heq : units u = units v)
    (hne : units u ≠ 0) : u = v := by
  cases hu with
  | zero s => exact absurd rfl hne
  | @finite m e s h hm =>
    have pos := magnitude_pos h e
    cases hv with
    | zero s' => exact absurd heq hne
    | @finite n d s' h' hn =>
      have pos' := magnitude_pos h' d
      rw [units_finite, units_finite] at heq
      obtain ⟨rfl, hmagnitude⟩ : s = s' ∧ magnitude m e = magnitude n d := by
        cases s <;> cases s' <;> simp only [Sign.apply] at heq
        · exact ⟨rfl, by omega⟩
        · omega
        · omega
        · exact ⟨rfl, by omega⟩
      obtain ⟨rfl, rfl⟩ := hm.magnitude_inj hn hmagnitude
      rfl

/-- A number is the same with another one added to it, or it has moved in the
direction of that one. -/
theorem add_moves (hu : Proper u) (hv : Proper v) (hne : units v ≠ 0) :
    u.add .binary64 v = u
    ∨ (0 < units v → units u < units (u.add .binary64 v))
      ∧ (units v < 0 → units (u.add .binary64 v) < units u) := by
  obtain ⟨hsum, between⟩ := between_add hu hv
  have hu' := between u hu
  have hv' := between v hv
  by_cases same : units (u.add .binary64 v) = units u
  · refine .inl (units_inj hsum hu same ?_)
    -- nothing is added to zero that could get lost
    omega
  · exact .inr ⟨fun _ => by omega, fun _ => by omega⟩

end

end Stencil.Number
