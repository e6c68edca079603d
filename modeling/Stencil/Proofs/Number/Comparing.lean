/-
Floats compared with each other.

Two floats that are numbers have an order, and seen from the other side it is the
reverse (`compare_swap`); they are equal if neither comes first. Whole numbers
are floats that are numbers, though not every one of its own.
-/
import Stencil.Proofs.Number.Moving

namespace Stencil.Number

open Float.Model (UnpackedFloat)
open Float.Model.UnpackedFloat (Sign)

variable {x y : Float} {u v : UnpackedFloat}

-- ================================================================ both sides

theorem compare_swap (u v : UnpackedFloat) :
    v.compare u = (u.compare v).map Ordering.swap := by
  have exponents (e d : Int) (m n : Nat) :
      (compare d e).then (compare n m)
        = ((compare e d).then (compare m n)).swap := by
    rw [Ordering.swap_then, Int.compare_swap, Nat.compare_swap]
  cases u with
  | finite s m e h =>
    cases v with
    | finite s' n d h' =>
      cases s <;> cases s'
      · exact congrArg (some ·.swap) (exponents e d m n)
      · rfl
      · rfl
      · exact congrArg some (exponents e d m n)
    | infinity s' => cases s' <;> rfl
    | notANumber => rfl
    | zero s' => cases s <;> rfl
  | infinity s =>
    cases v with
    | infinity s' => cases s <;> cases s' <;> rfl
    | notANumber => cases s <;> rfl
    | _ => cases s <;> rfl
  | notANumber => cases v <;> rfl
  | zero s =>
    cases v with
    | finite s' n d h' => cases s' <;> rfl
    | infinity s' => cases s' <;> rfl
    | _ => rfl

theorem exists_compare (hu : u.isNaN = false) (hv : v.isNaN = false) :
    ∃ o, u.compare v = some o := by
  cases u with
  | finite s m e h =>
    cases v with
    | finite s' n d h' => cases s <;> cases s' <;> exact ⟨_, rfl⟩
    | infinity s' => cases s' <;> exact ⟨_, rfl⟩
    | notANumber => cases hv
    | zero s' => cases s <;> exact ⟨_, rfl⟩
  | infinity s =>
    cases v with
    | notANumber => cases hv
    | _ => cases s <;> exact ⟨_, rfl⟩
  | notANumber => cases hu
  | zero s =>
    cases v with
    | finite s' n d h' => cases s' <;> exact ⟨_, rfl⟩
    | infinity s' => cases s' <;> exact ⟨_, rfl⟩
    | notANumber => cases hv
    | zero s' => exact ⟨_, rfl⟩

-- ==================================================================== floats

theorem beq_comm (x y : Float) : (x == y) = (y == x) := by
  refine Bool.eq_iff_iff.2 ?_
  rw [beq_iff_compare, beq_iff_compare, compare_swap (unpack x)]
  cases (unpack x).compare (unpack y) with
  | none => exact iff_of_false nofun nofun
  | some o => cases o <;> decide

theorem compareFloats_eq (x y : Float) :
    compareFloats x y = (unpack x).compare (unpack y) := by
  unfold compareFloats
  simp only [lt_iff_compare, beq_iff_compare, compare_swap (unpack x)]
  cases (unpack x).compare (unpack y) with
  | none => rfl
  | some o => cases o <;> rfl

/-- Numbers have an order, and are equal if there is none before the other. -/
theorem exists_compareFloats (hx : x.isNaN = false) (hy : y.isNaN = false) :
    ∃ o, compareFloats x y = some o ∧ ((x == y) = true ↔ o = .eq) := by
  obtain ⟨o, ho⟩ := exists_compare (u := unpack x) (v := unpack y) hx hy
  refine ⟨o, (compareFloats_eq x y).trans ho, ?_⟩
  rw [beq_iff_compare, ho, Option.some_inj]

theorem compare_self (hu : u.isNaN = false) : u.compare u = some .eq := by
  obtain ⟨o, ho⟩ := exists_compare hu hu
  have swapped := compare_swap u u
  rw [ho] at swapped ⊢
  cases o with
  | eq => rfl
  | _ => cases swapped

theorem beq_self (hx : x.isNaN = false) : (x == x) = true :=
  beq_iff_compare.2 (compare_self hx)

-- ============================================================= which are numbers

theorem isNaN_of_isFinite (hx : isFinite x = true) : x.isNaN = false := by
  show (unpack x).isNaN = false
  unfold isFinite at hx
  split at hx
  · next hu => rw [hu]; rfl
  · next hu => rw [hu]; rfl
  · cases hx

theorem isNaN_pack (hu : Proper u) :
    (Float.ofModel (.pack u)).isNaN = false := by
  show (unpack (.ofModel (.pack u))).isNaN = false
  cases hu with
  | zero s =>
    rw [unpack_pack (.zero s) trivial]
    rfl
  | @finite m e s h canonical =>
    by_cases hfits : e ≤ 971
    · rw [unpack_pack (.finite s h canonical) hfits]
      rfl
    · rw [unpack_pack_infinity h (Int.not_le.1 hfits)]
      rfl

theorem isNaN_ofWhole (i : Int64) : (ofWhole i).isNaN = false :=
  isNaN_pack (between_normalize i.toInt (by decide) .positive).1

end Stencil.Number
