/-
What a loop over whole numbers does.

A step of no more than zero is a fault, before anything else is done. Otherwise
the passes are counted in advance, in numbers without a limit, and each has the
number that is due. 64 bits hold them all. A pass that fails ends the loop. All
passes share one scope, and nothing is left of it (`whole_range_exact`).
-/
import Mathlib.Algebra.Order.Floor.Div
import Stencil.Proofs.Template.Loops
import Stencil.Proofs.Template.Passes

namespace Stencil.Template

open Markup (Attribute Node)

variable {σ : Type} {m : Machine σ} {n : Node} {name : Option String}
  {body : Run σ Unit}

-- =================================================================== numbers

namespace WholeRange

/-- The numbers of the passes. -/
def number (r : WholeRange) (k : Nat) : Int := r.first.toInt + k * r.stride

/-- The numbers of the passes as values. -/
def value (r : WholeRange) (k : Nat) : Expr.Value :=
  .int (Int64.ofInt (r.number k))

theorem number_eq (r : WholeRange) (k : Nat) :
    r.number k = if r.first < r.last then r.first.toInt + k * r.step.toInt
      else r.first.toInt - k * r.step.toInt := by
  unfold number
  simp only [stride_eq, Int64.lt_iff_toInt_lt]
  split
  · rfl
  · rw [mul_neg, ← sub_eq_add_neg]

theorem number_next? {r : WholeRange} {k : Nat} {i j : Int64}
    (hi : i.toInt = r.number k) (h : r.next? i = some j) :
    j.toInt = r.number (k + 1) := by
  unfold number at hi ⊢
  rw [(next?_eq_some.1 h).1, hi, Nat.cast_succ, add_mul, one_mul, add_assoc]

theorem passes_eq_ceilDiv (r : WholeRange) :
    r.passes
      = (r.last.toInt - r.first.toInt).natAbs ⌈/⌉ r.step.toInt.toNat := by
  have positive := r.positive
  rw [Nat.ceilDiv_eq_add_pred_div, Nat.add_sub_assoc (by omega)]
  rfl

/-- 64 bits hold the numbers of all passes. -/
theorem toInt_number {r : WholeRange} {k : Nat} (hk : k < r.passes) :
    (Int64.ofInt (r.number k)).toInt = r.number k := by
  have positive := r.positive
  -- a pass begins before the last number
  have before : r.step.toInt.toNat * k
      < (r.last.toInt - r.first.toInt).natAbs := by
    refine Nat.lt_of_not_le fun hle => Nat.not_le_of_lt hk ?_
    rw [passes_eq_ceilDiv]
    exact (ceilDiv_le_iff_le_mul (by omega)).2 hle
  have product : ((r.step.toInt.toNat * k : Nat) : Int)
      = k * r.step.toInt := by
    rw [Nat.cast_mul, Int.toNat_of_nonneg positive.le, mul_comm]
  have bounds := And.intro (Int64.minValue_le_toInt r.first)
    (Int64.toInt_le r.first)
  have ends := And.intro (Int64.minValue_le_toInt r.last)
    (Int64.toInt_le r.last)
  have within : Int64.minValue.toInt ≤ r.number k
      ∧ r.number k ≤ Int64.maxValue.toInt := by
    rw [number_eq]
    simp only [Int64.lt_iff_toInt_lt]
    split <;> omega
  obtain ⟨i, hi⟩ := exists_toInt_eq within
  rw [← hi, Int64.ofInt_toInt]

end WholeRange

/-- From a number on, the passes that are left are made, unless the body fails
in one of them. -/
theorem passesFrom_made (n : Node) (r : WholeRange)
    (hsteady : Within Steady body) {start m : Machine σ} (hm : Bindable m)
    {k : Nat} {i : Int64} (ahead : 0 < r.remaining i)
    (hi : i.toInt = r.number k) (made : Passes name r.value body k start m) :
    let count := k + r.passesLeft i
    (∃ m', Passes name r.value body count start m'
      ∧ passesFrom n name r body i m = .ok () m')
    ∨ ∃ e m', Interrupted name r.value body count start e m'
      ∧ passesFrom n name r body i m = .error e m' := by
  intro count
  have positive := WholeRange.passesLeft_pos ahead
  have hvalue : r.value k = .int i := by
    rw [WholeRange.value, ← hi, Int64.ofInt_toInt]
  -- the induction is on the numbers that are left, of which the next pass
  -- takes one
  obtain ⟨bound, hbound, hbody⟩ := made.next n hsteady hm
  rw [hvalue] at hbound
  rw [passesFrom, bind_ok hbound]
  rcases hbody with ⟨m', hbody, made', hm'⟩ | ⟨e, m', hbody, interrupted⟩
  · rw [bind_ok hbody]
    cases hnext : r.next? i with
    | none =>
      have hcount : count = k + 1 :=
        congrArg (k + ·) (WholeRange.passesLeft_last ahead hnext)
      rw [hcount]
      exact .inl ⟨m', made', rfl⟩
    | some j =>
      obtain ⟨-, ahead'⟩ := WholeRange.next?_eq_some.1 hnext
      have hj := WholeRange.number_next? hi hnext
      have hcount : count = k + 1 + r.passesLeft j := by
        have := WholeRange.passesLeft_next? hnext
        omega
      rw [hcount]
      exact passesFrom_made n r hsteady hm' ahead' hj made'
  · rw [bind_error hbody]
    exact .inr ⟨e, m', interrupted count (by omega), rfl⟩
termination_by (r.remaining i).toNat
decreasing_by exact WholeRange.remaining_next? ‹_›

/-- A range that is not empty makes its passes in a scope of its own. -/
theorem inScope_runWhole (n : Node) (name : Option String) (r : WholeRange)
    (hsteady : Within Steady body) (h : r.first ≠ r.last) (m : Machine σ) :
    let opened : Machine σ := { m with scopes := m.scopes.push n }
    let closed := fun m : Machine σ => { m with scopes := m.scopes.pop }
    (∃ m', Passes name r.value body r.passes opened m'
      ∧ inScope n (runWhole n name r body) m = .ok () (closed m'))
    ∨ ∃ e m', Interrupted name r.value body r.passes opened e m'
      ∧ inScope n (runWhole n name r body) m = .error e (closed m') := by
  intro opened closed
  have hfirst : r.first.toInt = r.number 0 := by
    unfold WholeRange.number
    rw [Nat.cast_zero, zero_mul, add_zero]
  have none : Passes name r.value body 0 opened opened := .none opened
  have made := passesFrom_made n r hsteady (fun _ => rfl)
    (WholeRange.remaining_first h) hfirst none
  rw [WholeRange.passesLeft_first, zero_add] at made
  rcases made with ⟨m', made, hrun⟩ | ⟨e, m', interrupted, hrun⟩
  · exact .inl ⟨m', made, between_ok hrun closed⟩
  · exact .inr ⟨e, m', interrupted, between_error hrun closed⟩

-- ===================================================================== loops

/-- A loop that goes over whole numbers. -/
def WholeLoop (s : Settings σ) (env : Expr.Environment) (n : Node)
    (name : Option String) (first last step : Int64) : Prop :=
  ∃ b, RangeLoop s env n name b ∧ b.isFloating = false
    ∧ wholeBound n "from" 0 b.first env = .ok first
    ∧ wholeBound n "to" 0 b.last env = .ok last
    ∧ wholeBound n "by" 1 b.step env = .ok step

section

variable {s : Settings σ} {env : Expr.Environment} {first last step : Int64}

theorem wholeRange_ok {b : Bounds}
    (hfirst : wholeBound n "from" 0 b.first env = .ok first)
    (hlast : wholeBound n "to" 0 b.last env = .ok last)
    (hstep : wholeBound n "by" 1 b.step env = .ok step)
    (positive : 0 < step.toInt) :
    wholeRange n b env = .ok ⟨⟨first, last, step⟩, positive⟩ := by
  refine (reading_bind hfirst).trans ?_
  refine (reading_bind hlast).trans ?_
  refine (reading_bind hstep).trans ?_
  rw [dif_neg (Int.not_le.2 positive)]
  rfl

theorem wholeRange_error {b : Bounds}
    (hfirst : wholeBound n "from" 0 b.first env = .ok first)
    (hlast : wholeBound n "to" 0 b.last env = .ok last)
    (hstep : wholeBound n "by" 1 b.step env = .ok step)
    (hnot : step.toInt ≤ 0) :
    wholeRange n b env = .error (.on n "by" (.loopBound "by")) := by
  refine (reading_bind hfirst).trans ?_
  refine (reading_bind hlast).trans ?_
  refine (reading_bind hstep).trans ?_
  rw [dif_pos hnot]
  rfl

/-- A step that is not positive ends a loop before it begins. -/
theorem WholeLoop.halted
    (h : WholeLoop s m.scopes.environment n name first last step)
    (hnot : step.toInt ≤ 0) :
    loop s n body m
      = .error (.failed (.on n "by" (.loopBound "by"))) m := by
  obtain ⟨b, hrange, hwhole, hfirst, hlast, hstep⟩ := h
  rw [hrange.whole hwhole]
  exact bind_error (read_error (wholeRange_error hfirst hlast hstep hnot))

/-- A loop over whole numbers comes to its range. -/
theorem WholeLoop.entered
    (h : WholeLoop s m.scopes.environment n name first last step)
    (positive : 0 < step.toInt) :
    loop s n body m
      = if first = last then .ok () m
        else inScope n
          (runWhole n name ⟨⟨first, last, step⟩, positive⟩ body) m := by
  obtain ⟨b, hrange, hwhole, hfirst, hlast, hstep⟩ := h
  rw [hrange.whole hwhole,
    bind_ok (read_ok (wholeRange_ok hfirst hlast hstep positive))]
  split <;> rfl

end

/-- A loop over whole numbers with a step of no more than zero fails for it,
and nothing else happens. With any other step the passes are as many as the
step fits in between the first number and the last, rounded up. They have the
numbers that are due, whatever the body makes of the variable, unless the body
fails in one of them. All are made in a scope of the loop, and the scopes are
left as they were. -/
theorem whole_range_exact (s : Settings σ) (room : Nat) (n : Node)
    (m : Machine σ) {name : Option String} {first last step : Int64}
    (h : WholeLoop s m.scopes.environment n name first last step) :
    let run := element s (inner? s room) n.origin n.trail n.tree
    let body := contents s (inner? s room) true n
    let opened : Machine σ := { m with scopes := m.scopes.push n }
    let closed := fun m : Machine σ => { m with scopes := m.scopes.pop }
    let number := fun k : Nat =>
      if first < last then first.toInt + k * step.toInt
      else first.toInt - k * step.toInt
    let value := fun k => Expr.Value.int (Int64.ofInt (number k))
    let count := (last.toInt - first.toInt).natAbs ⌈/⌉ step.toInt.toNat
    (step.toInt ≤ 0 →
      let d : Diagnostic := .on n "by" (.loopBound "by")
      run m = .error (.failed d) m ∧ d.message = "<for> by value invalid")
    ∧ (0 < step.toInt →
      (∀ k < count, (Int64.ofInt (number k)).toInt = number k)
      ∧ ((∃ m', Passes name value body count opened m'
          ∧ run m = .ok () (closed m'))
        ∨ ∃ e m', Interrupted name value body count opened e m'
          ∧ run m = .error e (closed m'))
      ∧ (∀ k m', Passes name value body k opened m' →
          m'.scopes.outer = m.scopes.all)
      ∧ (after run m).scopes = m.scopes) := by
  intro run body opened closed number value count
  have steady : Within Steady body :=
    (lasting_steady.congruence s).contents
      ((lasting_steady.congruence s).inner room) true n
  have framed : Within Framed body := fun m => (steady m).framed
  have hloop : run m = loop s n body m := by
    obtain ⟨b, hrange, -⟩ := h
    exact hrange.element (inner? s room)
  constructor
  · intro hnot
    have hmessage :
        (Reason.loopBound "by").message = "<for> by value invalid" := by decide
    exact ⟨hloop.trans (h.halted hnot), hmessage⟩
  · intro positive
    let r : WholeRange := ⟨⟨first, last, step⟩, positive⟩
    have hrun := hloop.trans (h.entered positive)
    -- what the statement spells out is the course of the range
    have hnumber : number = r.number := (funext r.number_eq).symm
    have hvalue : value = r.value := by
      show (fun k => Expr.Value.int (Int64.ofInt (number k))) = _
      rw [hnumber]
      rfl
    have hcount : count = r.passes := r.passes_eq_ceilDiv.symm
    refine ⟨?_, ?_, fun k m' made => made.outer framed, ?_⟩
    · rw [hnumber, hcount]
      exact fun k hk => WholeRange.toInt_number hk
    · by_cases hempty : first = last
      · have hnone : count = 0 := by
          show (last.toInt - first.toInt).natAbs ⌈/⌉ _ = 0
          rw [hempty, sub_self]
          exact zero_ceilDiv _
        rw [if_pos hempty] at hrun
        rw [hnone]
        exact .inl ⟨opened, .none _, hrun⟩
      · rw [if_neg hempty] at hrun
        rw [hrun, hvalue, hcount]
        exact inScope_runWhole n name r steady hempty m
    · rw [after_congr hloop]
      exact (untouched_loop n framed m).scopes

theorem wholeBound_ok {env : Expr.Environment} {attr : String}
    {default i : Int64} {v : Expr.Value} (h : v.asInt.toOption = some i) :
    wholeBound n attr default (some v) env = .ok i := by
  unfold wholeBound
  dsimp only
  cases hv : v.asInt with
  | error e =>
    rw [hv] at h
    cases h
  | ok j =>
    rw [hv] at h
    cases h
    rfl

/-- A loop with an element in it. The number behind the second one is more than
64 bits hold. -/
def topmost : Node :=
  let said (name value : String) : Attribute := ⟨.ofText name, none, value⟩
  let bounds := [said "from" "9223372036854775800",
    said "to" "9223372036854775807", said "by" "5"]
  ⟨.given 0, directive 1 "for" (said "name" "i" :: bounds)
    [.node ⟨2, ⟨2, 1⟩, .element ⟨.ofText "br", none, [], []⟩⟩ []], []⟩

/-- Two passes are made, and the numbers end there. -/
theorem whole_range_exact_topmost :
    let s : Settings Unit := ⟨"x", ⟨fun _ _ => ((), none)⟩, .memory [], 0⟩
    let n := topmost
    let m : Machine Unit := ⟨.single (.fresh n none), 0, .empty, ()⟩
    let value := fun k : Nat =>
      Expr.Value.int (Int64.ofInt (9223372036854775800 + k * (5 : Int)))
    WholeLoop s m.scopes.environment n (some "i") 9223372036854775800
      9223372036854775807 5
    ∧ ∃ m', Passes (some "i") value (contents s (inner? s 1) true n) 2
        { m with scopes := m.scopes.push n } m'
      ∧ element s (inner? s 1) n.origin n.trail n.tree m
        = .ok () { m' with scopes := m'.scopes.pop } := by
  intro s n m value
  have reads (attr raw : String) (i : Int64)
      (hraw : n.attribute? attr = some raw) (hne : raw.isEmpty = false)
      (hs : Expr.substitute m.scopes.environment raw = .ok raw)
      (hv : (Expr.evaluate m.scopes.environment raw).map
        (fun v => (v.isFloating, v.asInt.toOption)) = .ok (false, some i)) :
      ∃ v, HasValue m.scopes.environment n attr v ∧ v.isFloating = false
        ∧ v.asInt.toOption = some i := by
    obtain ⟨v, hv, hwhole⟩ := hasValue_of_raw hraw hne hs hv
    exact ⟨v, hv, Prod.mk.inj hwhole⟩
  have hname : identifier n "name" .loopName m.scopes.environment
      = .ok (some "i") := by
    have hraw : n.attribute? "name" = some "i" := rfl
    have htext : Expr.substitute m.scopes.environment "i" = .ok "i" := by
      decide +kernel
    exact (reading_bind (substituted_ok hraw htext)).trans rfl
  obtain ⟨v, hfrom, hv, first⟩ := reads "from" "9223372036854775800"
    9223372036854775800 rfl (by decide) (by decide +kernel) (by decide +kernel)
  obtain ⟨v', hto, hv', last⟩ := reads "to" "9223372036854775807"
    9223372036854775807 rfl (by decide) (by decide +kernel) (by decide +kernel)
  obtain ⟨v'', hby, hv'', step⟩ := reads "by" "5" 5 rfl (by decide)
    (by decide +kernel) (by decide +kernel)
  have hrange := rangeLoop_of_values (s := s) (by decide) rfl hname rfl rfl
    hfrom hto hby
  have hwhole : (⟨some v, some v', some v''⟩ : Bounds).isFloating = false := by
    show (v.isFloating || v'.isFloating || v''.isFloating) = false
    rw [hv, hv', hv'']
    rfl
  have h : WholeLoop s m.scopes.environment n (some "i") 9223372036854775800
      9223372036854775807 5 :=
    ⟨_, hrange, hwhole, wholeBound_ok first, wholeBound_ok last,
      wholeBound_ok step⟩
  refine ⟨h, ?_⟩
  have exact := (whole_range_exact s 1 n m h).2 (by decide)
  rcases exact.2.1 with made | ⟨e, m', ⟨k, -, m₁, start, -, -, hfail⟩, -⟩
  · exact made
  · have hbody (start : Machine Unit) :
        ∃ m', contents s (inner? s 1) true n start = .ok () m' := ⟨_, rfl⟩
    obtain ⟨m'', hok⟩ := hbody start
    rw [hok] at hfail
    cases hfail

end Stencil.Template
