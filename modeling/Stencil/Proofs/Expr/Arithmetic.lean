/-
Arithmetic on whole numbers.

An operand is a whole number if it stands for one, be it a number, a text or
null. Sums, differences, products and negations of such operands are `Settled` by
the number that they are in the integers: it is the result if 64 bits hold it,
and otherwise there is none. Two things are not settled so. Beside a text `+` joins
texts, and the remainder goes by the quotient, which is too large in one case where
the remainder is not.
-/
import Mathlib.Algebra.Group.Int.Defs
import Stencil.Expr.Eval

namespace Stencil.Expr

variable {env : Environment} {l r : Term} {v w : Value} {x y : Int64}

-- ================================================================== operators

/-- The operators that look at both of their operands. -/
def BinaryOp.isStrict : BinaryOp → Bool
  | .and => false
  | .or => false
  | _ => true

/-- Both operands of a strict operator are evaluated before it is applied. -/
theorem eval_strict {op : BinaryOp} (hop : op.isStrict = true) (l r : Term) :
    (Term.binary op l r).eval env = (do
      let v ← l.eval env
      let w ← r.eval env
      applyBinary op v w) := by
  cases op with
  | and => cases hop
  | or => cases hop
  | _ =>
    rw [Term.eval]
    -- neither of the two rows above the general one is about this operator
    all_goals intro h; cases h

/-- A strict operator is applied to the values of its operands. -/
theorem eval_binary {op : BinaryOp} (hop : op.isStrict = true)
    (hl : l.eval env = .ok v) (hr : r.eval env = .ok w) :
    (Term.binary op l r).eval env = applyBinary op v w := by
  rw [eval_strict hop, hl, hr]
  rfl

theorem eval_unary {op : UnaryOp} (hl : l.eval env = .ok v) :
    (Term.unary op l).eval env = applyUnary op v := by
  rw [Term.eval, hl]
  rfl

-- ================================================================== exactness

/-- 64 bits hold the number. -/
def Held (n : Int) : Prop := -2 ^ 63 ≤ n ∧ n < 2 ^ 63

instance (n : Int) : Decidable (Held n) :=
  inferInstanceAs (Decidable (-2 ^ 63 ≤ n ∧ n < 2 ^ 63))

theorem held_iff {n : Int} :
    Held n ↔ Int64.minValue.toInt ≤ n ∧ n ≤ Int64.maxValue.toInt := by
  have hmin : Int64.minValue.toInt = -2 ^ 63 := by decide
  have hmax : Int64.maxValue.toInt = 2 ^ 63 - 1 := by decide
  unfold Held
  omega

theorem held_toInt (i : Int64) : Held i.toInt :=
  held_iff.2 ⟨Int64.minValue_le_toInt i, Int64.toInt_le i⟩

theorem exists_whole_of_held {n : Int} (h : Held n) :
    ∃ i : Int64, i.toInt = n ∧ Number.whole? n = some i := by
  cases hi : Number.whole? n with
  | none => exact absurd (held_iff.1 h) (Number.whole?_eq_none.1 hi)
  | some i => exact ⟨i, Number.whole?_eq_some.1 hi, rfl⟩

/-- An outcome that is the number if 64 bits hold it, and an overflow if they do
not. -/
structure Settled (n : Int) (outcome : Except Error Value) : Prop where
  held : Held n → ∃ i : Int64, i.toInt = n ∧ outcome = .ok (.int i)
  beyond : ¬ Held n → outcome = .error (.arithmetic .overflow)

theorem settled_checked (n : Int) : Settled n (checked (Number.whole? n)) where
  held h := by
    obtain ⟨i, hi, hwhole⟩ := exists_whole_of_held h
    exact ⟨i, hi, by rw [hwhole]; rfl⟩
  beyond h := by
    rw [Number.whole?_eq_none.2 fun hin => h (held_iff.2 hin)]
    rfl

/-- The value stands for a whole number. -/
def Value.Whole (v : Value) (x : Int64) : Prop := v.number? = some (.int x)

theorem Value.Whole.operand (h : v.Whole x) : operand v = .ok (.int x) := by
  unfold Expr.operand
  rw [h]

/-- On whole operands the whole operation is done. -/
theorem arithmetic_whole (hx : v.Whole x) (hy : w.Whole y)
    (onWhole : Int64 → Int64 → Except Error Value)
    (onFloats : Float → Float → Float) :
    arithmetic onWhole onFloats v w = onWhole x y := by
  unfold arithmetic
  rw [hx.operand, hy.operand]
  rfl

theorem settled_negate (hx : v.Whole x) : Settled (-x.toInt) (negate v) := by
  unfold negate
  rw [hx]
  exact settled_checked (-x.toInt)

theorem add_whole (hx : v.Whole x) (hy : w.Whole y) (hv : v.isString = false)
    (hw : w.isString = false) :
    Settled (x.toInt + y.toInt) (add v w) := by
  unfold add
  rw [hv, hw, if_neg (by decide), arithmetic_whole hx hy]
  exact settled_checked (x.toInt + y.toInt)

theorem add_text (h : v.isString = true ∨ w.isString = true) :
    add v w = .ok (.string (v.display ++ w.display)) := by
  unfold add
  rw [if_pos (Bool.or_eq_true_iff.2 h)]

-- ================================================================== remainders

/-- There is but one quotient that is too large. -/
theorem held_tdiv {m n : Int} (hm : Held m) (hn : n ≠ 0)
    (hone : ¬ (m = -2 ^ 63 ∧ n = -1)) : Held (m.tdiv n) := by
  have hle := Int.natAbs_tdiv_le_natAbs m n
  unfold Held at hm ⊢
  by_cases hmin : m = -2 ^ 63
  · have hn' : n ≠ -1 := fun h => hone ⟨hmin, h⟩
    by_cases hpos : n = 1
    · rw [hpos, Int.tdiv_one]
      exact hm
    · have hhalf : (m.tdiv n).natAbs ≤ m.natAbs / 2 := by
        rw [Int.natAbs_tdiv]
        exact Nat.div_le_div_left (by omega) (by decide)
      omega
  · omega

/-- Remainders are nearer to zero than what they are taken by. -/
theorem held_tmod (m : Int) {n : Int} (hn : n ≠ 0) (hn' : Held n) :
    Held (m.tmod n) := by
  have hmod := Int.natAbs_tmod m n
  have hless : m.natAbs % n.natAbs < n.natAbs := Nat.mod_lt _ (by omega)
  unfold Held at hn' ⊢
  omega

/-- The remainder of whole numbers, if the quotient is not too large. -/
theorem wholeRemainder_ok (hy : y.toInt ≠ 0)
    (hone : ¬ (x.toInt = -2 ^ 63 ∧ y.toInt = -1)) :
    ∃ i : Int64, i.toInt = x.toInt.tmod y.toInt
      ∧ wholeRemainder x y = .ok (.int i) := by
  obtain ⟨q, -, hq⟩ :=
    exists_whole_of_held (held_tdiv (held_toInt x) hy hone)
  obtain ⟨i, hi, hr⟩ :=
    exists_whole_of_held (held_tmod x.toInt hy (held_toInt y))
  refine ⟨i, hi, ?_⟩
  unfold wholeRemainder Number.rem?
  rw [if_neg fun h => hy (by rw [h]; rfl), hq, hr]
  rfl

theorem wholeRemainder_zero (hy : y.toInt = 0) :
    wholeRemainder x y = .error (.arithmetic .moduloByZero) := by
  unfold wholeRemainder
  rw [if_pos (Int64.toInt_inj.1 hy)]

theorem wholeRemainder_least (hx : x.toInt = -2 ^ 63) (hy : y.toInt = -1) :
    wholeRemainder x y = .error (.arithmetic .overflow) := by
  have hx : x = Int64.minValue := Int64.toInt_inj.1 (hx.trans (by decide))
  have hy : y = -1 := Int64.toInt_inj.1 hy
  rw [hx, hy]
  rfl

-- ================================================================ main results

/-- Whole operands give the exact result or none, however they come about: a
result that 64 bits hold is right, and one that they do not hold is an
overflow. A text beside `+` is no operand but joined to the other, and
the least number has no remainder by -1, as it has no quotient. -/
theorem whole_results_exact (env : Environment) (l r : Term) (v w : Value)
    (x y : Int64) (hl : l.eval env = .ok v) (hr : r.eval env = .ok w)
    (hx : v.Whole x) (hy : w.Whole y) :
    (v.isString = false → w.isString = false →
      Settled (x.toInt + y.toInt) ((Term.binary .plus l r).eval env))
    ∧ (v.isString = true ∨ w.isString = true →
      (Term.binary .plus l r).eval env
        = .ok (.string (v.display ++ w.display)))
    ∧ Settled (x.toInt - y.toInt) ((Term.binary .minus l r).eval env)
    ∧ Settled (x.toInt * y.toInt) ((Term.binary .times l r).eval env)
    ∧ Settled (-x.toInt) ((Term.unary .minus l).eval env)
    ∧ (y.toInt ≠ 0 → ¬ (x.toInt = -2 ^ 63 ∧ y.toInt = -1) →
      ∃ i : Int64, i.toInt = x.toInt.tmod y.toInt
        ∧ (Term.binary .modulo l r).eval env = .ok (.int i))
    ∧ (x.toInt = -2 ^ 63 → y.toInt = -1 →
      (Term.binary .modulo l r).eval env = .error (.arithmetic .overflow))
    ∧ (y.toInt = 0 → (Term.binary .modulo l r).eval env
      = .error (.arithmetic .moduloByZero)) := by
  have applied (op : BinaryOp) (hop : op.isStrict = true) :
      (Term.binary op l r).eval env = applyBinary op v w :=
    eval_binary hop hl hr
  have modulo : applyBinary .modulo v w = wholeRemainder x y :=
    arithmetic_whole hx hy wholeRemainder Number.remainder
  have difference : applyBinary .minus v w = checked (Number.sub? x y) :=
    arithmetic_whole hx hy (fun i j => checked (Number.sub? i j)) (· - ·)
  have product : applyBinary .times v w = checked (Number.mul? x y) :=
    arithmetic_whole hx hy (fun i j => checked (Number.mul? i j)) (· * ·)
  rw [applied .plus rfl, applied .minus rfl, applied .times rfl,
    applied .modulo rfl, eval_unary hl, modulo, difference, product]
  refine ⟨add_whole hx hy, add_text, settled_checked _, settled_checked _,
    settled_negate hx, wholeRemainder_ok, wholeRemainder_least,
    wholeRemainder_zero⟩

/-- A variable that stands for the least whole number, whatever its name. -/
def leastEverywhere : Environment :=
  ⟨fun _ => some (.int Int64.minValue), fun _ => none, fun _ => none⟩

/-- The least number and -1, which comes of a sum with a text in it: all that is
too large by one is refused. -/
theorem whole_results_exact_least :
    let l := Term.variable "x"
    let r := Term.binary .minus (.literal (.int 0)) (.literal (.string " 1 "))
    let result (op : BinaryOp) := (Term.binary op l r).eval leastEverywhere
    l.eval leastEverywhere = .ok (.int Int64.minValue)
    ∧ r.eval leastEverywhere = .ok (.int (-1))
    ∧ (Value.int Int64.minValue).Whole Int64.minValue
    ∧ (Value.int (-1)).Whole (-1)
    ∧ result .plus = .error (.arithmetic .overflow)
    ∧ (∃ i : Int64, i.toInt = -2 ^ 63 + 1 ∧ result .minus = .ok (.int i))
    ∧ result .times = .error (.arithmetic .overflow)
    ∧ (Term.unary .minus l).eval leastEverywhere
      = .error (.arithmetic .overflow)
    ∧ result .modulo = .error (.arithmetic .overflow) := by
  intro l r result
  have hr : r.eval leastEverywhere = .ok (.int (-1)) := rfl
  obtain ⟨sum, -, difference, product, negative, -, modulo, -⟩ :=
    whole_results_exact leastEverywhere l r (.int Int64.minValue) (.int (-1))
      Int64.minValue (-1) rfl hr rfl rfl
  exact ⟨rfl, hr, rfl, rfl, (sum rfl rfl).beyond (by decide),
    difference.held (by decide), product.beyond (by decide),
    negative.beyond (by decide), modulo (by decide) (by decide)⟩

/-- The remainder of the least number by -1 is zero, and there is none; and the
numbers that two texts stand for are not added. -/
theorem remainder_refused_and_texts_joined :
    let least := Term.variable "x"
    let minusOne := Term.unary .minus (.literal (.int 1))
    (Held (Int64.minValue.toInt.tmod (-1))
      ∧ (Term.binary .modulo least minusOne).eval leastEverywhere
        = .error (.arithmetic .overflow))
    ∧ ((Value.string "1").Whole 1 ∧ Held (1 + 2)
      ∧ (Term.binary .plus (.literal (.string "1")) (.literal (.int 2))).eval
          leastEverywhere
        = .ok (.string "12")) :=
  ⟨⟨by decide, rfl⟩, rfl, by decide, rfl⟩

end Stencil.Expr
