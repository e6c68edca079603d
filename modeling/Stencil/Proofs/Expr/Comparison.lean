/-
Comparisons with each other.

Numbers are ordered as whole numbers if both are whole, and as floats if one is
not; a text is the number that it denotes, but for two texts. Equality looks at
the kinds of the operands and not at the numbers: it takes a text for a float
always, also where it is a whole number beside another. So there is one case in
which order and equality do not agree (`Blurred`), and in all others they do.
-/
import Stencil.Proofs.Expr.Arithmetic
import Stencil.Proofs.Number.Comparing

namespace Stencil.Expr

open Value (Numeric)

variable {env : Environment} {l r : Term} {v w : Value} {a b : Numeric}
  {i j : Int64}

-- ==================================================================== numbers

/-- A whole number, a float that is a number, or a text that denotes one. -/
def Value.IsNumber : Value → Prop
  | .int _ => True
  | .float x => x.isNaN = false
  | .string s => (readNumber? s).isSome = true
  | _ => False

/-- A text denotes finite numbers only. -/
theorem isNaN_of_readNumber {s : String} (h : Value.readNumber? s = some a) :
    a.toFloat.isNaN = false := by
  unfold Value.readNumber? at h
  dsimp only at h
  split at h
  · cases h
    exact Number.isNaN_ofWhole _
  · obtain ⟨x, hx, rfl⟩ := Option.map_eq_some_iff.1 h
    exact Number.isNaN_of_isFinite (Option.filter_eq_some_iff.1 hx).2

theorem Value.IsNumber.exists_number (h : v.IsNumber) :
    ∃ a, v.number? = some a ∧ a.toFloat.isNaN = false := by
  cases v with
  | int i => exact ⟨.int i, rfl, Number.isNaN_ofWhole i⟩
  | float x => exact ⟨.float x, rfl, h⟩
  | string s =>
    obtain ⟨a, ha⟩ := Option.isSome_iff_exists.1 h
    exact ⟨a, ha, isNaN_of_readNumber ha⟩
  | _ => exact h.elim

/-- A whole number that is no text is one as it stands. -/
theorem Value.IsNumber.eq_int (h : v.IsNumber) (hv : v.isString = false)
    (hi : v.Whole i) : v = .int i := by
  cases v with
  | int j =>
    cases hi
    rfl
  | float x => cases hi
  | string s => cases hv
  | _ => exact h.elim

-- ====================================================================== order

/-- How numbers are ordered: whole ones exactly, others as floats. -/
def Value.Numeric.order (a b : Numeric) : Option Ordering :=
  match a, b with
  | .int i, .int j => some (compare i.toInt j.toInt)
  | a, b => Number.compareFloats a.toFloat b.toFloat

/-- Unless both are texts, their numbers decide. -/
theorem order_numbers (ha : v.number? = some a) (hb : w.number? = some b)
    (hs : v.isString = false ∨ w.isString = false) :
    v.order w = match a.order b with
      | some o => .ok o
      | none => .error (.arithmetic .notANumber) := by
  unfold Value.order
  split
  · rcases hs with hs | hs <;> cases hs
  · rw [ha, hb]
    cases a <;> cases b <;> rfl

theorem order_wholes (hi : v.Whole i) (hj : w.Whole j)
    (hs : v.isString = false ∨ w.isString = false) :
    v.order w = .ok (compare i.toInt j.toInt) :=
  order_numbers hi hj hs

theorem compare_eq_iff (i j : Int64) :
    compare i.toInt j.toInt = .eq ↔ i = j :=
  Int.compare_eq_eq.trans Int64.toInt_inj

theorem order_floats (h : ¬ ∃ i j, a = .int i ∧ b = .int j) :
    a.order b = Number.compareFloats a.toFloat b.toFloat := by
  cases a with
  | float x => rfl
  | int i =>
    cases b with
    | float y => rfl
    | int j => exact absurd ⟨i, j, rfl, rfl⟩ h

-- =================================================================== equality

/-- Unless both are whole numbers as they stand, equality is that of floats. -/
theorem equal_numbers (hv : v.IsNumber) (hw : w.IsNumber)
    (ha : v.number? = some a) (hb : w.number? = some b)
    (hs : v.isString = false ∨ w.isString = false)
    (hwhole : ¬ ∃ i j, v = .int i ∧ w = .int j) :
    v.equal w = (a.toFloat == b.toFloat) := by
  have same : Value.equal.sameNumber v w = (a.toFloat == b.toFloat) := by
    unfold Value.equal.sameNumber
    rw [ha, hb]
  -- one is no integer and one is no text, so they are compared as numbers
  cases v with
  | int i =>
    cases w with
    | int j => exact absurd ⟨i, j, rfl, rfl⟩ hwhole
    | float y => exact same
    | string t => exact same
    | _ => exact hw.elim
  | float x =>
    cases w with
    | int j => exact same
    | float y => exact same
    | string t => exact same
    | _ => exact hw.elim
  | string s =>
    cases w with
    | int j => exact same
    | float y => exact same
    | string t => rcases hs with hs | hs <;> cases hs
    | _ => exact hw.elim
  | _ => exact hv.elim

/-- Both are whole numbers, and not the same, but they are the same as floats;
and one of them is a text. -/
def Blurred (v w : Value) : Prop :=
  ∃ i j, v.Whole i ∧ w.Whole j ∧ i ≠ j
    ∧ (Number.ofWhole i == Number.ofWhole j) = true
    ∧ (v.isString = true ∨ w.isString = true)

/-- There is an order, and values are equal where it says so, or where they are
blurred. -/
def Ordered (v w : Value) : Prop :=
  ∃ o, v.order w = .ok o ∧ (v.equal w = true ↔ o = .eq ∨ Blurred v w)
    ∧ (o = .eq → ¬ Blurred v w)

theorem ordered_wholes (i j : Int64) : Ordered (.int i) (.int j) := by
  have clear : ¬ Blurred (.int i) (.int j) := by
    rintro ⟨_, _, -, -, -, -, h | h⟩ <;> cases h
  refine ⟨_, order_wholes rfl rfl (.inl rfl), ?_, fun _ => clear⟩
  rw [compare_eq_iff, or_iff_left clear]
  exact beq_iff_eq

/-- A whole number beside a text of one. -/
theorem ordered_text (hi : v.Whole i) (hj : w.Whole j)
    (hs : v.isString = false ∨ w.isString = false)
    (htext : v.isString = true ∨ w.isString = true)
    (hequal : v.equal w = (Number.ofWhole i == Number.ofWhole j)) :
    Ordered v w := by
  have blurred : Blurred v w
      ↔ i ≠ j ∧ (Number.ofWhole i == Number.ofWhole j) = true := by
    constructor
    · rintro ⟨i', j', hi', hj', hne, hsame, -⟩
      cases hi.symm.trans hi'
      cases hj.symm.trans hj'
      exact ⟨hne, hsame⟩
    · exact fun ⟨hne, hsame⟩ => ⟨i, j, hi, hj, hne, hsame, htext⟩
  refine ⟨_, order_wholes hi hj hs, ?_, ?_⟩
  · rw [hequal, compare_eq_iff, blurred]
    by_cases hij : i = j
    · rw [hij]
      exact iff_of_true (Number.beq_self (Number.isNaN_ofWhole j)) (.inl rfl)
    · rw [or_iff_right hij]
      exact ⟨fun hsame => ⟨hij, hsame⟩, And.right⟩
  · rw [compare_eq_iff, blurred]
    exact fun hij h => h.1 hij

/-- Numbers of which one is not whole. -/
theorem ordered_floats (ha : v.number? = some a) (hb : w.number? = some b)
    (hs : v.isString = false ∨ w.isString = false)
    (hx : a.toFloat.isNaN = false) (hy : b.toFloat.isNaN = false)
    (hab : ¬ ∃ i j, a = .int i ∧ b = .int j)
    (hequal : v.equal w = (a.toFloat == b.toFloat)) : Ordered v w := by
  have clear : ¬ Blurred v w := fun ⟨i, j, hi, hj, _⟩ =>
    hab ⟨i, j, Option.some.inj (ha.symm.trans hi),
      Option.some.inj (hb.symm.trans hj)⟩
  obtain ⟨o, ho, hsame⟩ := Number.exists_compareFloats hx hy
  have horder := order_numbers ha hb hs
  rw [order_floats hab, ho] at horder
  refine ⟨o, horder, ?_, fun _ => clear⟩
  rw [hequal, hsame, or_iff_left clear]

theorem ordered (hv : v.IsNumber) (hw : w.IsNumber)
    (hs : v.isString = false ∨ w.isString = false) : Ordered v w := by
  obtain ⟨a, ha, hx⟩ := hv.exists_number
  obtain ⟨b, hb, hy⟩ := hw.exists_number
  by_cases hwhole : ∃ i j, v = .int i ∧ w = .int j
  · obtain ⟨i, j, rfl, rfl⟩ := hwhole
    exact ordered_wholes i j
  have hequal := equal_numbers hv hw ha hb hs hwhole
  by_cases hab : ∃ i j, a = .int i ∧ b = .int j
  · obtain ⟨i, j, rfl, rfl⟩ := hab
    refine ordered_text ha hb hs ?_ hequal
    cases hl : v.isString with
    | true => exact .inl rfl
    | false =>
      cases hr : w.isString with
      | true => exact .inr rfl
      | false =>
        exact absurd ⟨i, j, hv.eq_int hl ha, hw.eq_int hr hb⟩ hwhole
  · exact ordered_floats ha hb hs hx hy hab hequal

-- ================================================================ main results

/-- The comparison of two expressions comes out true. -/
def Holds (env : Environment) (op : BinaryOp) (l r : Term) : Prop :=
  (Term.binary op l r).eval env = .ok (.bool true)

theorem holds_iff {op : BinaryOp} {b : Bool}
    (h : (Term.binary op l r).eval env = .ok (.bool b)) :
    Holds env op l r ↔ b = true := by
  unfold Holds
  rw [h]
  exact ⟨fun heq => by cases heq; rfl, fun heq => by rw [heq]⟩

/-- An operator that asks for the order, where there is one. -/
theorem eval_relational {o : Ordering} (op : BinaryOp)
    (hop : op.isStrict = true) (hl : l.eval env = .ok v)
    (hr : r.eval env = .ok w) (ho : v.order w = .ok o) (f : Ordering → Bool)
    (hf : applyBinary op v w = v.order w >>= fun o => .ok (.bool (f o))) :
    (Term.binary op l r).eval env = .ok (.bool (f o)) := by
  rw [eval_binary hop hl hr, hf, ho]
  rfl

/-- Exactly one of less, equal and greater holds, and the operators with two
symbols are their disjunctions. -/
structure Agreeing (env : Environment) (l r : Term) : Prop where
  one : (Holds env .less l r ∧ ¬ Holds env .equals l r
      ∧ ¬ Holds env .greater l r)
    ∨ (¬ Holds env .less l r ∧ Holds env .equals l r
      ∧ ¬ Holds env .greater l r)
    ∨ (¬ Holds env .less l r ∧ ¬ Holds env .equals l r
      ∧ Holds env .greater l r)
  lessOrEqual : Holds env .lessOrEqual l r
    ↔ Holds env .less l r ∨ Holds env .equals l r
  greaterOrEqual : Holds env .greaterOrEqual l r
    ↔ Holds env .greater l r ∨ Holds env .equals l r

/-- Comparisons of numbers, not both of them texts, have a result. They agree
with each other just in case the two are not a whole number and the text of
another that is the same float; such two are equal, and one is the greater. -/
theorem comparisons_agree (env : Environment) (l r : Term) (v w : Value)
    (hl : l.eval env = .ok v) (hr : r.eval env = .ok w)
    (hv : v.IsNumber) (hw : w.IsNumber)
    (hs : v.isString = false ∨ w.isString = false) :
    (∀ op ∈ [.less, .lessOrEqual, .equals, .greaterOrEqual, .greater],
      ∃ b, (Term.binary op l r).eval env = .ok (.bool b))
    ∧ (Agreeing env l r ↔ ¬ Blurred v w)
    ∧ (Blurred v w → Holds env .equals l r
      ∧ (Holds env .less l r ∨ Holds env .greater l r)) := by
  obtain ⟨o, ho, hequal, hclear⟩ := ordered hv hw hs
  have less := eval_relational .less rfl hl hr ho (· == .lt) rfl
  have lessOrEqual := eval_relational .lessOrEqual rfl hl hr ho (· != .gt) rfl
  have greater := eval_relational .greater rfl hl hr ho (· == .gt) rfl
  have greaterOrEqual :=
    eval_relational .greaterOrEqual rfl hl hr ho (· != .lt) rfl
  have equals : (Term.binary .equals l r).eval env = .ok (.bool (v.equal w)) :=
    eval_binary rfl hl hr
  refine ⟨?_, ?_, fun hblurred => ?_⟩
  · simp only [List.forall_mem_cons]
    exact ⟨⟨_, less⟩, ⟨_, lessOrEqual⟩, ⟨_, equals⟩, ⟨_, greaterOrEqual⟩,
      ⟨_, greater⟩, nofun⟩
  · constructor
    · rintro ⟨one, -, -⟩ hblurred
      -- blurred numbers would be equal and ordered at once
      rw [holds_iff less, holds_iff equals, holds_iff greater, hequal] at one
      cases o with
      | eq => exact hclear rfl hblurred
      | lt => simp [hblurred] at one
      | gt => simp [hblurred] at one
    · intro hclear
      rw [or_iff_left hclear] at hequal
      constructor
      · rw [holds_iff less, holds_iff equals, holds_iff greater, hequal]
        cases o <;> decide
      · rw [holds_iff less, holds_iff equals, holds_iff lessOrEqual, hequal]
        cases o <;> decide
      · rw [holds_iff greater, holds_iff equals, holds_iff greaterOrEqual, hequal]
        cases o <;> decide
  · rw [holds_iff less, holds_iff equals, holds_iff greater, hequal]
    refine ⟨.inr hblurred, ?_⟩
    cases o with
    | lt => exact .inl rfl
    | eq => exact absurd hblurred (hclear rfl)
    | gt => exact .inr rfl

/-- No names mean anything. -/
def emptyEnvironment : Environment :=
  ⟨fun _ => none, fun _ => none, fun _ => none⟩

/-- Beside the float that it cannot be told apart from, a whole number agrees;
beside the text of its neighbour it does not. -/
theorem comparisons_agree_at_the_limit :
    let v := Value.int 9007199254740993
    let x := Value.float (Number.ofWhole 9007199254740992)
    let s := Value.string " 9007199254740992 "
    let l := Term.literal (.int 9007199254740993)
    let r := Term.literal (.float (Number.ofWhole 9007199254740992))
    let t := Term.literal (.string " 9007199254740992 ")
    (l.eval emptyEnvironment = .ok v ∧ r.eval emptyEnvironment = .ok x
      ∧ t.eval emptyEnvironment = .ok s)
    ∧ (v.IsNumber ∧ x.IsNumber ∧ s.IsNumber ∧ x.isString = false
      ∧ v.isString = false)
    ∧ Agreeing emptyEnvironment l r
    ∧ Blurred v s ∧ ¬ Agreeing emptyEnvironment l t := by
  intro v x s l r t
  have hx : x.IsNumber := Number.isNaN_ofWhole 9007199254740992
  have hs : s.IsNumber := rfl
  have clear : ¬ Blurred v x := by
    rintro ⟨_, _, -, h, -⟩
    cases h
  have blurred : Blurred v s :=
    ⟨9007199254740993, 9007199254740992, rfl, rfl, by decide,
      by decide +kernel, .inr rfl⟩
  obtain ⟨-, agreeing, -⟩ := comparisons_agree emptyEnvironment l r v x
    rfl rfl trivial hx (.inl rfl)
  obtain ⟨-, contradicting, -⟩ := comparisons_agree emptyEnvironment l t v s
    rfl rfl trivial hs (.inl rfl)
  exact ⟨⟨rfl, rfl, rfl⟩, ⟨trivial, hx, hs, rfl, rfl⟩, agreeing.2 clear,
    blurred, fun h => contradicting.1 h blurred⟩

/-- A number is equal to a text and greater than it, and not at most as
great. -/
theorem equal_and_greater :
    let l := Term.literal (.int 9007199254740993)
    let r := Term.literal (.string "9007199254740992")
    let result (op : BinaryOp) := (Term.binary op l r).eval emptyEnvironment
    (Value.int 9007199254740993).IsNumber
    ∧ (Value.string "9007199254740992").IsNumber
    ∧ result .equals = .ok (.bool true)
    ∧ result .greater = .ok (.bool true)
    ∧ result .lessOrEqual = .ok (.bool false) :=
  ⟨trivial, rfl, rfl, rfl, rfl⟩

end Stencil.Expr
