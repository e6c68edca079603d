/-
Division by zero.

The remainder of whole numbers is refused by a divisor that is zero, and the
error is that of every expression that `Needs` the value: what is evaluated in
front of it has a value, and no test passes it over. A quotient is floating, and
so a zero is one of floats: an infinity of the dividend's sign, and no number if
the dividend is zero too. That is a value, with which an evaluation goes on.
-/
import Stencil.Proofs.Expr.Arithmetic
import Stencil.Proofs.Number.Moving
import Stencil.Proofs.Related

namespace Stencil.Number

open Float.Model (UnpackedFloat)
open Float.Model.UnpackedFloat (Sign)

variable {i : Int64} {m : Nat} {s : Sign}

-- ================================================================== quotients

/-- A positive number that is rounded and packed keeps its sign, also where it
becomes infinite. -/
theorem unpack_round (s : Sign) (hm : 0 < m) :
    unpack (round s m 0) = .infinity s
      ∨ ∃ n e h, unpack (round s m 0) = .finite s n e h := by
  obtain ⟨n, e, h, hround, canonical, -⟩ := round_between s hm (e := 0) (by decide)
  unfold round
  rw [hround]
  rcases Int.lt_or_le 971 e with hlarge | hfits
  · exact .inl (unpack_pack_infinity h hlarge)
  · exact .inr ⟨n, e, h, unpack_pack (.finite s h canonical) hfits⟩

theorem ofWhole_positive (hi : 0 < i.toInt) :
    ofWhole i = round .positive i.toInt.toNat 0 := by
  show Float.ofModel (.pack (UnpackedFloat.normalize .binary64 i.toInt 0 _)) = _
  unfold UnpackedFloat.normalize
  rw [Int.compare_eq_gt.2 hi]
  rfl

theorem ofWhole_negative (hi : i.toInt < 0) :
    ofWhole i = round .negative (-i.toInt).toNat 0 := by
  show Float.ofModel (.pack (UnpackedFloat.normalize .binary64 i.toInt 0 _)) = _
  unfold UnpackedFloat.normalize
  rw [Int.compare_eq_lt.2 hi]
  rfl

theorem unpack_ofWhole_zero : unpack (ofWhole 0) = .zero .positive := rfl

theorem div_eq (x y : Float) :
    x / y = .ofModel (.pack (.div .binary64 (unpack x) (unpack y))) := rfl

theorem div_zero {x : Float} (hx : unpack x = .infinity s
      ∨ ∃ n e h, unpack x = .finite s n e h) :
    x / ofWhole 0 = .ofModel (.pack (.infinity s)) := by
  have hs : s / .positive = s := by cases s <;> rfl
  have quotient : (unpack x).div .binary64 (.zero .positive) = .infinity s := by
    rcases hx with hx | ⟨n, e, h, hx⟩ <;> rw [hx] <;>
      exact congrArg UnpackedFloat.infinity hs
  rw [div_eq, unpack_ofWhole_zero, quotient]

/-- A whole number divided by zero, as floats are. -/
def overZero (i : Int64) : Float :=
  if i = 0 then notANumber else infinity (i < 0)

theorem ofWhole_div_zero (i : Int64) : ofWhole i / ofWhole 0 = overZero i := by
  rcases Int.lt_trichotomy i.toInt 0 with hlt | hzero | hgt
  · have hne : i ≠ 0 := fun h => by rw [h] at hlt; exact absurd hlt (by decide)
    have hless : i < 0 := Int64.lt_iff_toInt_lt.2 hlt
    rw [overZero, if_neg hne, decide_eq_true hless, ofWhole_negative hlt]
    exact div_zero (unpack_round .negative (by omega))
  · obtain rfl : i = 0 := Int64.toInt_inj.1 hzero
    rw [overZero, if_pos rfl, div_eq, unpack_ofWhole_zero]
    rfl
  · have hne : i ≠ 0 := fun h => by rw [h] at hgt; exact absurd hgt (by decide)
    have hless : ¬ i < 0 := fun h =>
      absurd (Int64.lt_iff_toInt_lt.1 h) (Int.not_lt.2 (Int.le_of_lt hgt))
    rw [overZero, if_neg hne, decide_eq_false hless, ofWhole_positive hgt]
    exact div_zero (unpack_round .positive (by omega))

theorem isFinite_overZero (i : Int64) : isFinite (overZero i) = false := by
  unfold overZero
  split
  · rfl
  · cases decide (i < 0) <;> rfl

end Stencil.Number

namespace Stencil.Expr

-- ============================================================== what is needed

/-- An evaluation of the expression comes to the first one and needs its value:
all that is evaluated in front of it has one, and no test passes it over. -/
inductive Needs (env : Environment) (u : Term) : Term → Prop
  | self : Needs env u u
  | item {t : Term} {front : List Term} {vs : List Value}
    (behind : List Term) (hfront : evalItems env front = .ok vs)
    (h : Needs env u t) : Needs env u (.array (front ++ t :: behind))
  | entry {t : Term} {front : List (String × Term)}
    {vs : List (String × Value)} (k : String) (behind : List (String × Term))
    (hfront : evalEntries env front = .ok vs) (h : Needs env u t) :
    Needs env u (.object (front ++ (k, t) :: behind))
  | property {t : Term} (name : String) (h : Needs env u t) :
    Needs env u (.property t name)
  | target {t : Term} (i : Term) (h : Needs env u t) :
    Needs env u (.index t i)
  | index {l t : Term} {v : Value} (hl : l.eval env = .ok v)
    (h : Needs env u t) : Needs env u (.index l t)
  | argument {t : Term} {qualifier : String} {library : Library}
    {front : List Term} {vs : List Value} (name : String)
    (behind : List Term) (hlibrary : env.libraryOf qualifier = .ok library)
    (hfront : evalItems env front = .ok vs) (h : Needs env u t) :
    Needs env u (.call qualifier name (front ++ t :: behind))
  | unary {t : Term} (op : UnaryOp) (h : Needs env u t) :
    Needs env u (.unary op t)
  | left {t : Term} (op : BinaryOp) (r : Term) (h : Needs env u t) :
    Needs env u (.binary op t r)
  | right {l t : Term} {v : Value} {op : BinaryOp} (hop : op.isStrict = true)
    (hl : l.eval env = .ok v) (h : Needs env u t) :
    Needs env u (.binary op l t)
  | conjunct {l t : Term} {v : Value} (hl : l.eval env = .ok v)
    (hv : v.asBool = .ok true) (h : Needs env u t) :
    Needs env u (.binary .and l t)
  | disjunct {l t : Term} {v : Value} (hl : l.eval env = .ok v)
    (hv : v.asBool = .ok false) (h : Needs env u t) :
    Needs env u (.binary .or l t)
  | test {t : Term} (yes no : Term) (h : Needs env u t) :
    Needs env u (.conditional t yes no)
  | yes {l t : Term} {v : Value} (no : Term) (hl : l.eval env = .ok v)
    (hv : v.asBool = .ok true) (h : Needs env u t) :
    Needs env u (.conditional l t no)
  | no {l t : Term} {v : Value} (yes : Term) (hl : l.eval env = .ok v)
    (hv : v.asBool = .ok false) (h : Needs env u t) :
    Needs env u (.conditional l yes t)

variable {env : Environment} {l r t u : Term} {v w : Value} {x y : Int64}
  {e : Error}

/-- The first item without a value leaves a list without values. -/
theorem evalItems_error {front behind : List Term} {vs : List Value}
    (hfront : evalItems env front = .ok vs) (ht : t.eval env = .error e) :
    evalItems env (front ++ t :: behind) = .error e := by
  induction front generalizing vs with
  | nil =>
    rw [List.nil_append, evalItems, ht]
    rfl
  | cons f front ih =>
    rw [evalItems] at hfront
    obtain ⟨a, hf, hfront⟩ := bind_eq_ok hfront
    obtain ⟨as, hrest, -⟩ := bind_eq_ok hfront
    rw [List.cons_append, evalItems, hf, ih hrest]
    rfl

theorem evalEntries_error {front behind : List (String × Term)}
    {vs : List (String × Value)} (k : String)
    (hfront : evalEntries env front = .ok vs) (ht : t.eval env = .error e) :
    evalEntries env (front ++ (k, t) :: behind) = .error e := by
  induction front generalizing vs with
  | nil =>
    rw [List.nil_append, evalEntries, ht]
    rfl
  | cons entry front ih =>
    obtain ⟨k', f⟩ := entry
    rw [evalEntries] at hfront
    obtain ⟨a, hf, hfront⟩ := bind_eq_ok hfront
    obtain ⟨as, hrest, -⟩ := bind_eq_ok hfront
    rw [List.cons_append, evalEntries, hf, ih hrest]
    rfl

theorem binary_error_left (op : BinaryOp) (hl : l.eval env = .error e) :
    (Term.binary op l r).eval env = .error e := by
  cases op with
  | and =>
    rw [Term.eval, hl]
    rfl
  | or =>
    rw [Term.eval, hl]
    rfl
  | _ =>
    rw [eval_strict rfl, hl]
    rfl

theorem binary_error_right {op : BinaryOp} (hop : op.isStrict = true)
    (hl : l.eval env = .ok v) (hr : r.eval env = .error e) :
    (Term.binary op l r).eval env = .error e := by
  rw [eval_strict hop, hl, hr]
  rfl

/-- What needs a value that there is none of fails as that does. -/
theorem Needs.fails (h : Needs env u t) (hu : u.eval env = .error e) :
    t.eval env = .error e := by
  induction h with
  | self => exact hu
  | item behind hfront h ih =>
    rw [Term.eval, evalItems_error hfront ih]
    rfl
  | entry k behind hfront h ih =>
    rw [Term.eval, evalEntries_error k hfront ih]
    rfl
  | property name h ih =>
    rw [Term.eval, ih]
    rfl
  | target i h ih =>
    rw [Term.eval, ih]
    rfl
  | index hl h ih =>
    rw [Term.eval, hl, ih]
    rfl
  | argument name behind hlibrary hfront h ih =>
    rw [Term.eval, hlibrary, evalItems_error hfront ih]
    rfl
  | unary op h ih =>
    rw [Term.eval, ih]
    rfl
  | left op r h ih => exact binary_error_left op ih
  | right hop hl h ih => exact binary_error_right hop hl ih
  | conjunct hl hv h ih =>
    rw [Term.eval, hl]
    show (do if ← Value.asBool _ then _ else _) = _
    rw [hv, ih]
    rfl
  | disjunct hl hv h ih =>
    rw [Term.eval, hl]
    show (do if ← Value.asBool _ then _ else _) = _
    rw [hv, ih]
    rfl
  | test yes no h ih =>
    rw [Term.eval, ih]
    rfl
  | yes no hl hv h ih =>
    rw [Term.eval, hl]
    show (do if ← Value.asBool _ then _ else _) = _
    rw [hv, ih]
    rfl
  | no yes hl hv h ih =>
    rw [Term.eval, hl]
    show (do if ← Value.asBool _ then _ else _) = _
    rw [hv, ih]
    rfl

-- ================================================================ main results

theorem divide_whole (hx : v.Whole x) (hy : w.Whole y) :
    divide v w = .ok (.float (Number.ofWhole x / Number.ofWhole y)) := by
  unfold divide
  rw [hx.operand, hy.operand]
  rfl

/-- A whole number has no remainder by zero, and nothing has a value that needs
one, whatever the number is and however the two come about. It has a quotient:
the floating one, which is an infinity or no number. -/
theorem zero_divisors (env : Environment) (l r : Term) (v w : Value)
    (x y : Int64) (hl : l.eval env = .ok v) (hr : r.eval env = .ok w)
    (hx : v.Whole x) (hy : w.Whole y) (hzero : y = 0) :
    (∀ t, Needs env (.binary .modulo l r) t →
      t.eval env = .error (.arithmetic .moduloByZero))
    ∧ (Term.binary .divide l r).eval env = .ok (.float (Number.overZero x))
    ∧ Number.isFinite (Number.overZero x) = false := by
  subst hzero
  have remainder : (Term.binary .modulo l r).eval env
      = .error (.arithmetic .moduloByZero) := by
    rw [eval_binary rfl hl hr]
    exact (arithmetic_whole hx hy wholeRemainder Number.remainder).trans
      (wholeRemainder_zero rfl)
  have quotient : (Term.binary .divide l r).eval env
      = .ok (.float (Number.overZero x)) := by
    rw [eval_binary rfl hl hr, ← Number.ofWhole_div_zero]
    exact divide_whole hx hy
  exact ⟨fun t h => h.fails remainder, quotient, Number.isFinite_overZero x⟩

/-- The least number by null, which a negation behind a passed test needs. -/
theorem zero_divisors_least :
    let l := Term.variable "x"
    let r := Term.unary .minus (.literal .null)
    let t := Term.array [l, .conditional (.literal (.bool false)) l
      (.unary .minus (.binary .modulo l r)), l]
    l.eval leastEverywhere = .ok (.int Int64.minValue)
    ∧ r.eval leastEverywhere = .ok (.int 0)
    ∧ (Value.int Int64.minValue).Whole Int64.minValue ∧ (Value.int 0).Whole 0
    ∧ Needs leastEverywhere (.binary .modulo l r) t
    ∧ t.eval leastEverywhere = .error (.arithmetic .moduloByZero)
    ∧ (Term.binary .divide l r).eval leastEverywhere
      = .ok (.float (Number.infinity true)) := by
  intro l r t
  have hr : r.eval leastEverywhere = .ok (.int 0) := rfl
  obtain ⟨remainder, quotient, -⟩ :=
    zero_divisors leastEverywhere l r (.int Int64.minValue) (.int 0)
      Int64.minValue 0 rfl hr rfl rfl rfl
  have needed : Needs leastEverywhere (.binary .modulo l r) t :=
    Needs.item [l] (rfl : evalItems leastEverywhere [l] = _)
      (.no (v := .bool false) l rfl rfl (.unary .minus .self))
  exact ⟨rfl, hr, rfl, rfl, needed, remainder t needed, quotient⟩

/-- One divided by zero is no error but an infinity, and so more than two. -/
theorem one_over_zero :
    let one := Term.literal (.int 1)
    let quotient := Term.binary .divide one (.literal (.int 0))
    parse "1 / 0" = .ok quotient ∧ parse "1 div 0" = .ok quotient
    ∧ quotient.eval leastEverywhere = .ok (.float (Number.infinity false))
    ∧ Needs leastEverywhere quotient
        (.binary .greater quotient (.literal (.int 2)))
    ∧ (Term.binary .greater quotient (.literal (.int 2))).eval leastEverywhere
      = .ok (.bool true) := by
  intro one quotient
  have infinite : quotient.eval leastEverywhere
      = .ok (.float (Number.infinity false)) := by
    show divide (.int 1) (.int 0) = _
    rw [divide_whole (v := .int 1) (w := .int 0) rfl rfl,
      Number.ofWhole_div_zero]
    rfl
  have order : (Value.float (Number.infinity false)).order (.int 2) = .ok .gt := by
    have larger : Number.compareFloats (Number.infinity false)
        (Number.ofWhole 2) = some .gt :=
      Number.compareFloats_infinity (s := .positive) rfl rfl
    simp only [Value.order, Value.number?, Value.Numeric.toFloat, larger]
  refine ⟨by with_unfolding_all rfl, by with_unfolding_all rfl, infinite,
    .left .greater _ .self, ?_⟩
  have two : (Term.literal (.int 2)).eval leastEverywhere = .ok (.int 2) := rfl
  rw [eval_binary rfl infinite two, applyBinary, order]
  rfl

end Stencil.Expr
