/-
How many passes a range of whole numbers makes.

The passes can be counted in advance: as many as steps fit in between the first
number and the last, a last part of a step counted as a whole one. The numbers
of the passes are as far apart as the step says, and 64 bits hold them all, as
each lies before the last one. So stepping until the range ends comes to the
same as making so many passes (`runWhole_eq`).
-/
import Stencil.Template.Loop

namespace Stencil.Template

open Markup (Node)

variable {σ : Type}

/-- As many passes as said, from a number on, each a step further. -/
def wholePasses (n : Node) (name : Option String) (pass : Run σ Unit)
    (step : Int) : Nat → Int → Run σ Unit
  | 0, _ => pure ()
  | k + 1, i => do
    bindOptional n name (.int (Int64.ofInt i))
    pass
    wholePasses n name pass step k (i + step)

/-- How many passes a whole range makes. -/
def Range.passes (r : Range Int64) : Nat :=
  let distance := (r.last.toInt - r.first.toInt).natAbs
  let step := r.step.toInt.toNat
  (distance + (step - 1)) / step

/-- 64 bits hold the numbers within their limits. -/
theorem exists_toInt_eq {k : Int}
    (h : Int64.minValue.toInt ≤ k ∧ k ≤ Int64.maxValue.toInt) :
    ∃ i : Int64, i.toInt = k := by
  obtain ⟨i, hi⟩ : ∃ i, Number.whole? k = some i :=
    Option.ne_none_iff_exists'.1 fun hover => Number.whole?_eq_none.1 hover h
  exact ⟨i, Number.whole?_eq_some.1 hi⟩

namespace WholeRange

variable {r : WholeRange} {i j : Int64}

theorem stride_eq (r : WholeRange) :
    r.stride = if r.first.toInt < r.last.toInt then r.step.toInt
      else -r.step.toInt := by
  simp only [stride, isUp, decide_eq_true_iff, Int64.lt_iff_toInt_lt]

/-- How many passes are made from a number on. -/
def passesLeft (r : WholeRange) (i : Int64) : Nat :=
  ((r.remaining i).toNat + (r.step.toInt.toNat - 1)) / r.step.toInt.toNat

/-- The range ends where no more than a step is left. -/
theorem next?_eq_none :
    r.next? i = none ↔ r.remaining i ≤ r.step.toInt := by
  constructor
  · intro hnone
    refine Int.not_lt.1 fun hmore => ?_
    have within : Int64.minValue.toInt ≤ i.toInt + r.stride
        ∧ i.toInt + r.stride ≤ Int64.maxValue.toInt := by
      -- the number a step behind lies between `i` and the last one
      have positive := r.positive
      have bounds := And.intro (Int64.minValue_le_toInt i) (Int64.toInt_le i)
      have ends := And.intro (Int64.minValue_le_toInt r.last)
        (Int64.toInt_le r.last)
      unfold remaining at hmore
      unfold stride
      cases hup : r.isUp with
      | true =>
        simp only [hup, if_true] at hmore ⊢
        omega
      | false =>
        simp only [hup, Bool.false_eq_true, if_false] at hmore ⊢
        omega
    obtain ⟨j, number⟩ := exists_toInt_eq within
    have less := remaining_of_toInt number
    have some := next?_eq_some.2 ⟨number, by omega⟩
    rw [hnone] at some
    cases some
  · intro hless
    refine Option.eq_none_iff_forall_ne_some.2 fun j hj => ?_
    obtain ⟨number, ahead⟩ := next?_eq_some.1 hj
    have := remaining_of_toInt number
    omega

/-- One pass less is left behind each step. -/
theorem passesLeft_next? (h : r.next? i = some j) :
    r.passesLeft i = r.passesLeft j + 1 := by
  obtain ⟨number, ahead⟩ := next?_eq_some.1 h
  have less := remaining_of_toInt number
  have positive := r.positive
  have split : (r.remaining i).toNat + (r.step.toInt.toNat - 1)
      = (r.remaining j).toNat + (r.step.toInt.toNat - 1)
        + r.step.toInt.toNat := by
    omega
  unfold passesLeft
  rw [split, Nat.add_div_right _ (by omega)]

/-- One pass is left where the range ends. -/
theorem passesLeft_last (h : 0 < r.remaining i) (hnone : r.next? i = none) :
    r.passesLeft i = 1 := by
  have less := next?_eq_none.1 hnone
  unfold passesLeft
  refine (Nat.div_eq_iff (by omega)).2 ?_
  omega

theorem passesLeft_pos (h : 0 < r.remaining i) : 0 < r.passesLeft i := by
  have positive := r.positive
  exact Nat.div_pos (by omega) (by omega)

/-- All that is between the bounds is left at first, whichever is greater. -/
theorem remaining_first_eq (r : WholeRange) :
    r.remaining r.first = (r.last.toInt - r.first.toInt).natAbs := by
  unfold remaining isUp
  by_cases hup : r.first < r.last
  · have := Int64.lt_iff_toInt_lt.1 hup
    simp only [hup, decide_true, if_true]
    omega
  · have : ¬ r.first.toInt < r.last.toInt := fun h =>
      hup (Int64.lt_iff_toInt_lt.2 h)
    simp only [hup, decide_false, Bool.false_eq_true, if_false]
    omega

theorem remaining_first (h : r.first ≠ r.last) : 0 < r.remaining r.first := by
  have apart : r.first.toInt ≠ r.last.toInt :=
    fun he => h (Int64.toInt_inj.1 he)
  rw [remaining_first_eq]
  omega

theorem passesLeft_first (r : WholeRange) :
    r.passesLeft r.first = r.passes := by
  unfold passesLeft Range.passes
  rw [remaining_first_eq, Int.toNat_natCast]

end WholeRange

/-- Stepping from a number on makes the passes that are left. -/
theorem passesFrom_eq (n : Node) (name : Option String) (r : WholeRange)
    (pass : Run σ Unit) {i : Int64} (h : 0 < r.remaining i) :
    passesFrom n name r pass i
      = wholePasses n name pass r.stride (r.passesLeft i) i.toInt := by
  rw [passesFrom]
  cases hnext : r.next? i with
  | none =>
    rw [WholeRange.passesLeft_last h hnext]
    simp only [wholePasses, Int64.ofInt_toInt]
  | some j =>
    obtain ⟨number, ahead⟩ := WholeRange.next?_eq_some.1 hnext
    rw [WholeRange.passesLeft_next? hnext, wholePasses, ← number,
      Int64.ofInt_toInt]
    simp only [passesFrom_eq n name r pass ahead]
termination_by (r.remaining i).toNat
decreasing_by exact WholeRange.remaining_next? ‹_›

/-- A range that is not empty makes its passes, from its first number on. -/
theorem runWhole_eq (n : Node) (name : Option String) (r : WholeRange)
    (pass : Run σ Unit) (h : r.first ≠ r.last) :
    runWhole n name r pass
      = wholePasses n name pass r.stride r.passes r.first.toInt := by
  rw [runWhole, passesFrom_eq n name r pass (WholeRange.remaining_first h),
    WholeRange.passesLeft_first]

end Stencil.Template
