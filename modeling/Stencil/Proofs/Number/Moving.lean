/-
Floats on the move.

Adding something positive to a finite float, or taking it away, gives a float
that is further on, or an infinite one, or the same again (`moves`).
-/
import Stencil.Proofs.Number.Sums

namespace Stencil.Number

open Float.Model (UnpackedFloat)
open Float.Model.UnpackedFloat (Sign)

variable {x y : Float} {s : Sign} {w : UnpackedFloat}

/-- A finite float as a multiple of the least positive one. -/
def position (x : Float) : Int := units (unpack x)

-- ================================================================= comparing

theorem lt_iff_compare :
    x < y ↔ (unpack x).compare (unpack y) = some .lt := by
  show decide (((unpack x).compare (unpack y) == some Ordering.lt) = true)
    = true ↔ _
  rw [decide_eq_true_iff]
  exact beq_iff_eq

theorem beq_iff_compare :
    (x == y) = true ↔ (unpack x).compare (unpack y) = some .eq := by
  show ((unpack x).compare (unpack y) == some Ordering.eq) = true ↔ _
  exact beq_iff_eq

/-- Finite floats are ordered by their positions. -/
theorem compareFloats_finite (hx : isFinite x = true)
    (hy : isFinite y = true) :
    compareFloats x y = some (ordering (position x) (position y)) := by
  have hx := (proper_of_isFinite hx).1
  have hy := (proper_of_isFinite hy).1
  have here := compare_proper hx hy
  have there := compare_proper hy hx
  unfold compareFloats position
  simp only [lt_iff_compare, beq_iff_compare, here, there, Option.some_inj,
    ordering_lt, ordering_eq]
  rcases Int.lt_trichotomy (units (unpack x)) (units (unpack y))
    with h | h | h
  · rw [if_pos h, ordering_lt.2 h]
  · rw [if_neg (by omega), if_neg (by omega), if_pos h, ordering_eq.2 h]
  · rw [if_neg (by omega), if_pos h, ordering_gt.2 h]

theorem beq_finite (hx : isFinite x = true) (hy : isFinite y = true) :
    (x == y) = true ↔ position x = position y := by
  have here :=
    compare_proper (proper_of_isFinite hx).1 (proper_of_isFinite hy).1
  rw [beq_iff_compare, here, Option.some_inj, ordering_eq]
  rfl

theorem lt_of_compareFloats (h : compareFloats x y = some .gt) : y < x := by
  unfold compareFloats at h
  split at h
  · cases h
  · split at h
    · assumption
    · split at h <;> cases h

theorem compareFloats_infinity (hx : unpack x = .infinity s)
    (hy : isFinite y = true) :
    compareFloats x y = some (match s with
      | .positive => .gt
      | .negative => .lt) := by
  have hy := (proper_of_isFinite hy).1
  unfold compareFloats
  simp only [lt_iff_compare, beq_iff_compare, hx]
  generalize unpack y = v at hy
  cases hy with
  | zero s' => cases s <;> rfl
  | finite s' h canonical => cases s <;> cases s' <;> rfl

-- ==================================================================== moving

/-- What is added moves a float in a direction: it is infinite, or a number of
that sign. -/
inductive Towards (s : Sign) : UnpackedFloat → Prop
  | infinity : Towards s (.infinity s)
  | proper {w : UnpackedFloat} (hw : Proper w) (ahead : 0 < s.apply (units w)) :
    Towards s w

/-- How much further a float is than another, in a direction. -/
def ahead (s : Sign) (x y : Float) : Int := s.apply (position y - position x)

/-- What is greater than zero leads up. -/
theorem towards_of_positive (hy : unpack y = .zero .positive)
    (h : compareFloats x y = some .gt) : Towards .positive (unpack x) := by
  have hless := lt_iff_compare.1 (lt_of_compareFloats h)
  rw [hy] at hless
  rcases unpack_cases x with ⟨s, hx⟩ | hx | ⟨hu, -⟩
  · rw [hx] at hless ⊢
    cases s with
    | positive => exact .infinity
    | negative => cases hless
  · rw [hx] at hless
    cases hless
  · rw [compare_proper (.zero _) hu] at hless
    exact .proper hu (ordering_lt.1 (Option.some.inj hless))

theorem Towards.neg (h : Towards .positive w) : Towards .negative w.neg := by
  cases h with
  | infinity => exact .infinity
  | proper hw hahead =>
    refine .proper (proper_neg hw) ?_
    rw [units_neg]
    exact lt_of_lt_of_eq hahead (Int.neg_neg _).symm

theorem ahead_add (s : Sign) (x y z : Float) :
    ahead s x z = ahead s x y + ahead s y z := by
  cases s <;> simp only [ahead, Sign.apply] <;> omega

theorem position_of_unpack {u : UnpackedFloat} (hx : unpack x = u)
    (hu : Proper u) : isFinite x = true ∧ position x = units u := by
  unfold isFinite position
  rw [hx]
  cases hu <;> exact ⟨rfl, rfl⟩

theorem natAbs_units_lt {u : UnpackedFloat} (hu : Proper u) (hfits : Fits u)
    {n : Nat} {d : Int} (hn : Canonical n d) (h : 0 < n) (hlarge : 971 < d) :
    (units u).natAbs < magnitude n d := by
  cases hu with
  | zero s => exact magnitude_pos h d
  | @finite m e s h hm =>
    have hless := hm.magnitude_lt hn (Int.lt_of_le_of_lt hfits hlarge)
    rw [units_finite]
    cases s <;> simp only [Sign.apply] <;> omega

/-- A finite float is the same with something added to it, or it is further on,
or it is infinite. -/
theorem moves (hx : isFinite x = true) (hw : Towards s w) :
    let y := Float.ofModel (.pack ((unpack x).add .binary64 w))
    y = x ∨ (isFinite y = true ∧ 0 < ahead s x y)
      ∨ unpack y = .infinity s := by
  intro y
  obtain ⟨hu, hfits⟩ := proper_of_isFinite hx
  cases hw with
  | infinity =>
    have hsum : (unpack x).add .binary64 (.infinity s) = .infinity s := by
      generalize unpack x = u at hu
      cases hu <;> rfl
    refine .inr (.inr ?_)
    show unpack (.ofModel (.pack _)) = _
    rw [hsum]
    exact unpack_infinity s
  | proper hw hahead =>
    have hne : units w ≠ 0 := by
      intro hzero
      rw [hzero] at hahead
      cases s <;> exact absurd hahead (by decide)
    rcases add_moves hu hw hne with same | moved
    · refine .inl ?_
      show Float.ofModel (.pack _) = _
      rw [same, pack_unpack]
    · have hmoved : 0 < s.apply
          (units ((unpack x).add .binary64 w) - units (unpack x)) := by
        cases s <;> simp only [Sign.apply] at hahead ⊢ <;> omega
      have hsum := (between_add hu hw).1
      have hy : y = .ofModel (.pack ((unpack x).add .binary64 w)) := rfl
      generalize (unpack x).add .binary64 w = r at hsum hmoved hy
      by_cases hr : Fits r
      · have hunpack : unpack y = r := by rw [hy, unpack_pack hsum hr]
        obtain ⟨hfinite, hposition⟩ := position_of_unpack hunpack hsum
        refine .inr (.inl ⟨hfinite, ?_⟩)
        unfold ahead
        rw [hposition]
        exact hmoved
      · refine .inr (.inr ?_)
        cases hsum with
        | zero s' => exact absurd trivial hr
        | @finite n d s' h hn =>
          have hlarge : 971 < d := Int.not_le.1 hr
          have hless := natAbs_units_lt hu hfits hn h hlarge
          rw [hy, unpack_pack_infinity h hlarge]
          rw [units_finite] at hmoved
          -- a number that large on the other side would be behind
          cases s <;> cases s' <;>
            first
            | rfl
            | simp only [Sign.apply] at hmoved; omega

end Stencil.Number
