/-
What a loop over floating numbers does.

A step is rounded. It leads on towards the last number, as long as that is not
reached, or it leads nowhere: it may be too small for the number that it is
added to. So there are two courses for a range to take. After some passes a step
leads to the last number or beyond it, and the loop ends. Or after some passes a
step leaves the number as it is, and so do all that follow; then only the limit
on passes ends the loop, or a body that fails (`float_range_course`).
-/
import Stencil.Proofs.Number.Moving
import Stencil.Proofs.Template.Loops

namespace Stencil.Template

open Float.Model (UnpackedFloat)
open Float.Model.UnpackedFloat (Sign)
open Markup (Attribute Node)
open Number (Towards ahead compareFloats isFinite position unpack)

variable {σ : Type} {m : Machine σ} {n : Node} {name : Option String}
  {body : Run σ Unit}

namespace Range

variable {r : Range Float} {up : Bool} {x y : Float} {k : Nat}

-- ================================================================ one step

/-- The direction of a range as a sign. -/
def side (up : Bool) : Sign := if up then .positive else .negative

theorem next_eq (hstep : isPositive r.step = true) (up : Bool) (x : Float) :
    ∃ w, Towards (side up) w
      ∧ r.next up x = .ofModel (.pack ((unpack x).add .binary64 w)) := by
  have hpositive : Towards .positive (unpack r.step) :=
    Number.towards_of_positive rfl (beq_iff_eq.1 hstep)
  cases up with
  | true => exact ⟨_, hpositive, rfl⟩
  | false =>
    refine ⟨_, hpositive.neg, ?_⟩
    rw [← Number.sub_eq_add_neg]
    rfl

/-- A float is nearer to the end of the range than another. -/
def Nearer (up : Bool) (x y : Float) : Prop :=
  compareFloats x y = some (if up then .lt else .gt)

theorem nearer_iff (hx : isFinite x = true) (hy : isFinite y = true) :
    Nearer up x y ↔ 0 < ahead (side up) x y := by
  unfold Nearer ahead side
  rw [Number.compareFloats_finite hx hy]
  cases up with
  | true =>
    simp only [if_true, Option.some_inj, Number.ordering_lt, Sign.apply]
    omega
  | false =>
    simp only [Bool.false_eq_true, if_false, Option.some_inj,
      Number.ordering_gt, Sign.apply]
    omega

theorem isInside_iff : r.isInside up x = true ↔ Nearer up x r.last :=
  beq_iff_eq

/-- A step leaves a number as it is, or leads nearer to the end of the range, or
out of it. -/
theorem next_cases (hstep : isPositive r.step = true)
    (hlast : isFinite r.last = true) (hx : isFinite x = true) :
    r.next up x = x
    ∨ (isFinite (r.next up x) = true ∧ Nearer up x (r.next up x))
    ∨ r.isInside up (r.next up x) = false := by
  obtain ⟨w, hw, hnext⟩ := next_eq hstep up x
  have hmoves := Number.moves hx hw
  rw [← hnext] at hmoves
  refine hmoves.imp_right (.imp (fun h => ?_) fun hover => ?_)
  · exact ⟨h.1, (nearer_iff hx h.1).2 h.2⟩
  · unfold isInside
    rw [Number.compareFloats_infinity hover hlast]
    cases up <;> rfl

-- =================================================================== courses

/-- The numbers of the passes. -/
def number (r : Range Float) (up : Bool) : Nat → Float
  | 0 => r.first
  | k + 1 => r.next up (number r up k)

theorem number_succ (r : Range Float) (up : Bool) (k : Nat) :
    r.number up (k + 1) = r.next up (r.number up k) := rfl

/-- Up to a pass the numbers are inside the range, and each is nearer to its end
than the one before. -/
structure Advances (r : Range Float) (up : Bool) (k : Nat) : Prop where
  inside : ∀ j ≤ k, r.isInside up (r.number up j) = true
  nearer : ∀ j < k, Nearer up (r.number up j) (r.number up (j + 1))

theorem Advances.succ (h : r.Advances up k)
    (hinside : r.isInside up (r.number up (k + 1)) = true)
    (hnearer : Nearer up (r.number up k) (r.number up (k + 1))) :
    r.Advances up (k + 1) := by
  constructor
  · intro j hj
    rcases Nat.lt_or_eq_of_le hj with hlt | rfl
    · exact h.inside j (Nat.le_of_lt_succ hlt)
    · exact hinside
  · intro j hj
    rcases Nat.lt_or_eq_of_le (Nat.le_of_lt_succ hj) with hlt | rfl
    · exact h.nearer j hlt
    · exact hnearer

/-- A range has a last pass, or a pass whose number stays. -/
theorem exists_advances (hstep : isPositive r.step = true)
    (hlast : isFinite r.last = true) {k : Nat} (h : r.Advances up k)
    (hfinite : isFinite (r.number up k) = true) :
    ∃ k, r.Advances up k
      ∧ (r.isInside up (r.number up (k + 1)) = false
        ∨ r.number up (k + 1) = r.number up k) := by
  rcases next_cases hstep hlast hfinite with same | ⟨hfinite', hnearer⟩ | hout
  · exact ⟨k, h, .inr same⟩
  · cases hinside : r.isInside up (r.number up (k + 1)) with
    | false => exact ⟨k, h, .inl hinside⟩
    | true =>
      rw [number_succ] at hinside
      have remaining := (nearer_iff hfinite' hlast).1 (isInside_iff.1 hinside)
      have gained := (nearer_iff hfinite hfinite').1 hnearer
      have split := Number.ahead_add (side up) (r.number up k)
        (r.next up (r.number up k)) r.last
      exact exists_advances hstep hlast (h.succ hinside hnearer) hfinite'
  · exact ⟨k, h, .inl hout⟩
termination_by (ahead (side up) (r.number up k) r.last).toNat
decreasing_by
  rw [number_succ]
  omega

/-- A number that stays once stays for good. -/
theorem number_stays (h : r.number up (k + 1) = r.number up k) (j : Nat) :
    r.number up (k + j) = r.number up k := by
  induction j with
  | zero => rfl
  | succ j ih =>
    show r.next up (r.number up (k + j)) = _
    rw [ih]
    exact h

theorem Advances.always (hadvances : r.Advances up k)
    (h : r.number up (k + 1) = r.number up k) (j : Nat) :
    r.isInside up (r.number up j) = true := by
  rcases Nat.le_total j k with hle | hle
  · exact hadvances.inside j hle
  · obtain ⟨j, rfl⟩ := Nat.exists_eq_add_of_le hle
    rw [number_stays h]
    exact hadvances.inside k (Nat.le_refl k)

/-- The numbers of the passes as values. -/
def value (r : Range Float) (up : Bool) (k : Nat) : Expr.Value :=
  .float (r.number up k)

end Range

-- ==================================================================== passes

section

variable {r : Range Float} {up : Bool} {start : Machine σ} {k last : Nat}

/-- Where there is a last pass, it is made, unless the body fails before. -/
theorem floatPasses_ended (n : Node) (hsteady : Within Steady body)
    (h : r.Advances up last)
    (hend : r.isInside up (r.number up (last + 1)) = false) (fuel : Nat)
    (hk : k ≤ last) (hfuel : last < k + fuel) (hm : Bindable m)
    (made : Passes name (r.value up) body k start m) :
    (∃ m', Passes name (r.value up) body (last + 1) start m'
      ∧ floatPasses n name r up body fuel (r.number up k) m = .ok () m')
    ∨ ∃ e m', Interrupted name (r.value up) body (last + 1) start e m'
      ∧ floatPasses n name r up body fuel (r.number up k) m = .error e m' := by
  induction fuel generalizing k m with
  | zero => omega
  | succ fuel ih =>
    -- `made` is what was done so far; the next pass extends it or breaks off
    obtain ⟨bound, hbound, hbody⟩ := made.next n hsteady hm
    have hbound' : bindOptional n name (.float (r.number up k)) m
        = .ok () bound := hbound
    rw [floatPasses, bind_ok hbound']
    rcases hbody with ⟨m', hbody, made', hm'⟩ | ⟨e, m', hbody, interrupted⟩
    · rw [bind_ok hbody]
      rw [← Range.number_succ]
      rcases Nat.lt_or_eq_of_le hk with hlt | rfl
      · rw [if_pos (h.inside (k + 1) hlt)]
        exact ih hlt (by omega) hm' made'
      · rw [hend]
        exact .inl ⟨m', made', rfl⟩
    · rw [bind_error hbody]
      exact .inr ⟨e, m', interrupted _ (Nat.lt_succ_of_le hk), rfl⟩

/-- Where the range never ends, the passes that are granted are made, unless
the body fails before. -/
theorem floatPasses_unfinished (n : Node) (hsteady : Within Steady body)
    (h : ∀ j, r.isInside up (r.number up j) = true) (fuel : Nat)
    (hm : Bindable m) (made : Passes name (r.value up) body k start m) :
    (∃ m', Passes name (r.value up) body (k + fuel) start m'
      ∧ floatPasses n name r up body fuel (r.number up k) m
        = .error .unfinished m')
    ∨ ∃ e m', Interrupted name (r.value up) body (k + fuel) start e m'
      ∧ floatPasses n name r up body fuel (r.number up k) m = .error e m' := by
  induction fuel generalizing k m with
  | zero => exact .inl ⟨m, made, rfl⟩
  | succ fuel ih =>
    obtain ⟨bound, hbound, hbody⟩ := made.next n hsteady hm
    have hbound' : bindOptional n name (.float (r.number up k)) m
        = .ok () bound := hbound
    rw [floatPasses, bind_ok hbound']
    -- every number is inside, so only the fuel or the body ends the loop
    rcases hbody with ⟨m', hbody, made', hm'⟩ | ⟨e, m', hbody, interrupted⟩
    · rw [bind_ok hbody]
      rw [← Range.number_succ, if_pos (h (k + 1)), Nat.add_comm fuel 1,
        ← Nat.add_assoc]
      exact ih hm' made'
    · rw [bind_error hbody]
      exact .inr ⟨e, m', interrupted _ (by omega), rfl⟩

end

-- ===================================================================== loops

/-- A loop that goes over floating numbers. -/
def FloatLoop (s : Settings σ) (env : Expr.Environment) (n : Node)
    (name : Option String) (first last step : Float) : Prop :=
  ∃ b, RangeLoop s env n name b ∧ b.isFloating = true
    ∧ floatBound n "from" (Number.ofWhole 0) b.first env = .ok first
    ∧ floatBound n "to" (Number.ofWhole 0) b.last env = .ok last
    ∧ floatBound n "by" (Number.ofWhole 1) b.step env = .ok step

section

variable {s : Settings σ} {env : Expr.Environment} {first last step : Float}

/-- A loop over floating numbers comes to its range. -/
theorem FloatLoop.entered
    (h : FloatLoop s m.scopes.environment n name first last step)
    (positive : isPositive step = true) :
    loop s n body m
      = if first == last then .ok () m
        else inScope n (runFloat s n name ⟨first, last, step⟩ body) m := by
  obtain ⟨b, hrange, hfloating, hfirst, hlast, hstep⟩ := h
  have hread : floatRange n b m.scopes.environment
      = .ok ⟨first, last, step⟩ := by
    refine (reading_bind hfirst).trans ?_
    refine (reading_bind hlast).trans ?_
    refine (reading_bind hstep).trans ?_
    rw [if_pos positive]
    rfl
  rw [hrange.floating hfloating, bind_ok (read_ok hread)]
  dsimp only
  split <;> rfl

/-- A loop whose range has a last pass. -/
theorem FloatLoop.ended
    (h : FloatLoop s m.scopes.environment n name first last step)
    (hsteady : Within Steady body) (positive : isPositive step = true)
    (hne : ¬ (first == last) = true) {k : Nat} :
    let r : Range Float := ⟨first, last, step⟩
    let up := compareFloats first last == some .lt
    let opened : Machine σ := { m with scopes := m.scopes.push n }
    let closed := fun m : Machine σ => { m with scopes := m.scopes.pop }
    r.Advances up k → r.isInside up (r.number up (k + 1)) = false →
    k < s.passes →
    (∃ m', Passes name (r.value up) body (k + 1) opened m'
      ∧ loop s n body m = .ok () (closed m'))
    ∨ ∃ e m', Interrupted name (r.value up) body (k + 1) opened e m'
      ∧ loop s n body m = .error e (closed m') := by
  intro r up opened closed hadvances hend hk
  have none : Passes name (r.value up) body 0 opened opened := .none opened
  have made := floatPasses_ended n hsteady hadvances hend s.passes
    (Nat.zero_le k) (by omega) (fun _ => rfl) none
  rw [h.entered positive, if_neg hne]
  rcases made with ⟨m', made, hmade⟩ | ⟨e, m', interrupted, hmade⟩
  · exact .inl ⟨m', made, between_ok hmade closed⟩
  · exact .inr ⟨e, m', interrupted, between_error hmade closed⟩

/-- A loop whose range never ends. -/
theorem FloatLoop.unfinished
    (h : FloatLoop s m.scopes.environment n name first last step)
    (hsteady : Within Steady body) (positive : isPositive step = true)
    (hne : ¬ (first == last) = true) :
    let r : Range Float := ⟨first, last, step⟩
    let up := compareFloats first last == some .lt
    let opened : Machine σ := { m with scopes := m.scopes.push n }
    let closed := fun m : Machine σ => { m with scopes := m.scopes.pop }
    (∀ j, r.isInside up (r.number up j) = true) →
    (∃ m', Passes name (r.value up) body s.passes opened m'
      ∧ loop s n body m = .error .unfinished (closed m'))
    ∨ ∃ e m', Interrupted name (r.value up) body s.passes opened e m'
      ∧ loop s n body m = .error e (closed m') := by
  intro r up opened closed hinside
  have none : Passes name (r.value up) body 0 opened opened := .none opened
  have made := floatPasses_unfinished n hsteady hinside s.passes
    (fun _ => rfl) none
  rw [Nat.zero_add] at made
  -- the scope of the loop is opened around the passes and left behind them
  rw [h.entered positive, if_neg hne]
  rcases made with ⟨m', made, hmade⟩ | ⟨e, m', interrupted, hmade⟩
  · exact .inl ⟨m', made, between_error hmade closed⟩
  · exact .inr ⟨e, m', interrupted, between_error hmade closed⟩

end

/-- The numbers of a range that is not empty begin inside of it. -/
theorem advances_first {r : Range Float} (hfirst : isFinite r.first = true)
    (hlast : isFinite r.last = true) (h : ¬ (r.first == r.last) = true) :
    r.Advances (compareFloats r.first r.last == some .lt) 0 := by
  refine ⟨fun j hj => ?_, nofun⟩
  obtain rfl := Nat.le_zero.1 hj
  refine Range.isInside_iff.2 ?_
  have apart : position r.first ≠ position r.last :=
    fun heq => h ((Number.beq_finite hfirst hlast).2 heq)
  unfold Range.Nearer
  show compareFloats r.first r.last = _
  rw [Number.compareFloats_finite hfirst hlast]
  rcases Int.lt_or_gt_of_ne apart with hlt | hgt
  · rw [Number.ordering_lt.2 hlt]
    rfl
  · rw [Number.ordering_gt.2 hgt]
    rfl

/-- A loop over floating numbers that starts and ends at finite ones and has a
step greater than zero. If it is not empty, its numbers get nearer to the last
one up to a pass. Then either the next number is not inside the range any more,
and the loop ends with this pass; or the next number is the same, and the loop
makes all the passes that it is granted. The body may fail before, in both
cases. -/
theorem float_range_course (s : Settings σ) (room : Nat) (n : Node)
    (m : Machine σ) {name : Option String} {first last step : Float}
    (h : FloatLoop s m.scopes.environment n name first last step)
    (hfirst : isFinite first = true) (hlast : isFinite last = true)
    (hstep : isPositive step = true) :
    let run := element s (inner? s room) n.origin n.trail n.tree
    let body := contents s (inner? s room) true n
    let opened : Machine σ := { m with scopes := m.scopes.push n }
    let closed := fun m : Machine σ => { m with scopes := m.scopes.pop }
    let r : Range Float := ⟨first, last, step⟩
    let up := compareFloats first last == some .lt
    let value := fun k => Expr.Value.float (r.number up k)
    ((first == last) = true → run m = .ok () m)
    ∧ ((first == last) = false → ∃ k, r.Advances up k
      ∧ (r.isInside up (r.number up (k + 1)) = false
          ∧ (k < s.passes →
            (∃ m', Passes name value body (k + 1) opened m'
              ∧ run m = .ok () (closed m'))
            ∨ ∃ e m', Interrupted name value body (k + 1) opened e m'
              ∧ run m = .error e (closed m'))
        ∨ r.number up (k + 1) = r.number up k
          ∧ ((∃ m', Passes name value body s.passes opened m'
              ∧ run m = .error .unfinished (closed m'))
            ∨ ∃ e m', Interrupted name value body s.passes opened e m'
              ∧ run m = .error e (closed m')))) := by
  intro run body opened closed r up value
  have steady : Within Steady body :=
    (lasting_steady.congruence s).contents
      ((lasting_steady.congruence s).inner room) true n
  have hloop : run m = loop s n body m := by
    obtain ⟨b, hrange, -⟩ := h
    exact hrange.element (inner? s room)
  rw [hloop]
  constructor
  · intro hempty
    rw [h.entered hstep, if_pos hempty]
  · intro hne
    have hne := Bool.eq_false_iff.1 hne
    -- the numbers advance up to some `k`, and then leave the range or stay
    obtain ⟨k, hadvances, hcourse⟩ := Range.exists_advances (r := r) hstep
      hlast (advances_first hfirst hlast hne) hfirst
    refine ⟨k, hadvances, hcourse.imp ?_ ?_⟩
    · exact fun hend => ⟨hend, h.ended steady hstep hne hadvances hend⟩
    · intro hstays
      have hinside := hadvances.always hstays
      exact ⟨hstays, h.unfinished steady hstep hne hinside⟩

-- =============================================================== written out

theorem floatBound_ok {env : Expr.Environment} {attr : String}
    {default x : Float} {v : Expr.Value}
    (h : v.asFloat.toOption.map Float.toModel = some x.toModel) :
    floatBound n attr default (some v) env = .ok x := by
  unfold floatBound
  dsimp only
  cases hv : v.asFloat with
  | error e =>
    rw [hv] at h
    cases h
  | ok y =>
    rw [hv] at h
    have same : y = x := congrArg Float.ofModel (Option.some.inj h)
    exact same ▸ rfl

/-- A loop with these bounds, and with an element in it. -/
def floating (first last step : String) : Node :=
  let said (name value : String) : Attribute := ⟨.ofText name, none, value⟩
  let bounds := [said "from" first, said "to" last, said "by" step]
  ⟨.given 0, directive 1 "for" (said "name" "x" :: bounds)
    [.node ⟨2, ⟨2, 1⟩, .element ⟨.ofText "br", none, [], []⟩⟩ []], []⟩

/-- How a float is written without an expression. -/
structure Written (env : Expr.Environment) (raw : String) (x : Float) :
    Prop where
  filled : raw.isEmpty = false
  plain : Expr.substitute env raw = .ok raw
  value : (Expr.evaluate env raw).map
    (fun v => (v.isFloating, v.asFloat.toOption.map Float.toModel))
      = .ok (true, some x.toModel)

theorem floatLoop_floating {s : Settings σ} {env : Expr.Environment}
    {first last step : String} {x y z : Float} (hs : s.uri = "x")
    (hname : Expr.substitute env "x" = .ok "x") (hx : Written env first x)
    (hy : Written env last y) (hz : Written env step z) :
    FloatLoop s env (floating first last step) (some "x") x y z := by
  let n := floating first last step
  have hloop : Directive.ofNode? s.uri n = some .loop := by
    rw [hs]
    rfl
  have hincluded : included s.uri n env = .ok true := by
    rw [hs]
    rfl
  have hname : identifier n "name" .loopName env = .ok (some "x") := by
    have hraw : n.attribute? "name" = some "x" := rfl
    exact (reading_bind (substituted_ok hraw hname)).trans rfl
  have reads (attr raw : String) {x : Float}
      (hraw : n.attribute? attr = some raw) (h : Written env raw x) :
      ∃ v, HasValue env n attr v ∧ v.isFloating = true
        ∧ v.asFloat.toOption.map Float.toModel = some x.toModel := by
    obtain ⟨v, hv, hvalue⟩ := hasValue_of_raw hraw h.filled h.plain h.value
    exact ⟨v, hv, Prod.mk.inj hvalue⟩
  obtain ⟨v, hfrom, hfloating, hv⟩ := reads "from" first rfl hx
  obtain ⟨v', hto, -, hv'⟩ := reads "to" last rfl hy
  obtain ⟨v'', hby, -, hv''⟩ := reads "by" step rfl hz
  have hrange := rangeLoop_of_values hloop hincluded hname rfl rfl hfrom hto hby
  -- one bound with a fraction is enough, here the first
  have hfloats : (⟨some v, some v', some v''⟩ : Bounds).isFloating = true := by
    show (v.isFloating || v'.isFloating || v''.isFloating) = true
    rw [hfloating]
    rfl
  exact ⟨_, hrange, hfloats, floatBound_ok hv, floatBound_ok hv',
    floatBound_ok hv''⟩

/-- No output, and so many passes. -/
def quiet (passes : Nat) : Settings Unit :=
  ⟨"x", ⟨fun _ _ => ((), none)⟩, .memory [], passes⟩

/-- The body of the loop does not fail. -/
theorem floating_ok (first last step : String) (passes : Nat)
    (start : Machine Unit) :
    ∃ m', contents (quiet passes) (inner? (quiet passes) 1) true
      (floating first last step) start = .ok () m' :=
  ⟨_, rfl⟩

/-- Two passes are made from zero to one by a half. -/
theorem float_range_course_halves :
    let s := quiet 9
    let n := floating "0.0" "1.0" "0.5"
    let m : Machine Unit := ⟨.single (.fresh n none), 0, .empty, ()⟩
    let r : Range Float := ⟨0.0, 1.0, 0.5⟩
    FloatLoop s m.scopes.environment n (some "x") r.first r.last r.step
    ∧ isFinite r.first = true ∧ isFinite r.last = true
    ∧ isPositive r.step = true
    ∧ ∃ m', Passes (some "x") (r.value true) (contents s (inner? s 1) true n) 2
        { m with scopes := m.scopes.push n } m'
      ∧ element s (inner? s 1) n.origin n.trail n.tree m
        = .ok () { m' with scopes := m'.scopes.pop } := by
  intro s n m r
  have hfirst : isFinite r.first = true := by decide +kernel
  have hlast : isFinite r.last = true := by decide +kernel
  have hstep : isPositive r.step = true := by decide +kernel
  have h : FloatLoop s m.scopes.environment n (some "x") r.first r.last
      r.step :=
    floatLoop_floating rfl (by decide +kernel)
      ⟨by decide, by decide +kernel, by decide +kernel⟩
      ⟨by decide, by decide +kernel, by decide +kernel⟩
      ⟨by decide, by decide +kernel, by decide +kernel⟩
  refine ⟨h, hfirst, hlast, hstep, ?_⟩
  have hup : (compareFloats r.first r.last == some .lt) = true := by
    decide +kernel
  have first : r.isInside true (r.number true 1) = true := by decide +kernel
  have second : r.isInside true (r.number true 2) = false := by decide +kernel
  obtain ⟨k, hadvances, hcourse⟩ :=
    (float_range_course s 1 n m h hfirst hlast hstep).2 (by decide +kernel)
  rw [hup] at hadvances hcourse
  rcases hcourse with ⟨hend, hmade⟩ | ⟨hstays, -⟩
  · have hk : k = 1 := by
      rcases Nat.lt_trichotomy k 1 with hlt | heq | hgt
      · obtain rfl := Nat.lt_one_iff.1 hlt
        rw [first] at hend
        cases hend
      · exact heq
      · have := hadvances.inside 2 hgt
        rw [second] at this
        cases this
    subst hk
    rcases hmade (by decide)
      with made | ⟨e, m', ⟨k, -, m₁, start, -, -, hfail⟩, -⟩
    · exact made
    · obtain ⟨m'', hok⟩ := floating_ok _ _ _ 9 start
      rw [hok] at hfail
      cases hfail
  · have := hadvances.always hstays 2
    rw [second] at this
    cases this

/-- One is lost when it is added to a float that is large enough. The loop makes
all the passes that it is granted, though its body never fails. -/
theorem float_range_stays :
    let n := floating "9007199254740992.0" "9007199254740994.0" "1.0"
    let r : Range Float := ⟨9007199254740992.0, 9007199254740994.0, 1.0⟩
    ∀ passes,
      let s := quiet passes
      let m : Machine Unit := ⟨.single (.fresh n none), 0, .empty, ()⟩
      FloatLoop s m.scopes.environment n (some "x") r.first r.last r.step
      ∧ isFinite r.first = true ∧ isFinite r.last = true
      ∧ isPositive r.step = true
      ∧ (∀ start, ∃ m', contents s (inner? s 1) true n start = .ok () m')
      ∧ ∃ m', element s (inner? s 1) n.origin n.trail n.tree m
        = .error .unfinished m' := by
  intro n r passes s m
  have hfirst : isFinite r.first = true := by decide +kernel
  have hlast : isFinite r.last = true := by decide +kernel
  have hstep : isPositive r.step = true := by decide +kernel
  have hname : Expr.substitute m.scopes.environment "x" = .ok "x" := by
    decide +kernel
  have hx : Written m.scopes.environment "9007199254740992.0" r.first :=
    ⟨by decide, by decide +kernel, by decide +kernel⟩
  have hy : Written m.scopes.environment "9007199254740994.0" r.last :=
    ⟨by decide, by decide +kernel, by decide +kernel⟩
  have hz : Written m.scopes.environment "1.0" r.step :=
    ⟨by decide, by decide +kernel, by decide +kernel⟩
  have h : FloatLoop s m.scopes.environment n (some "x") r.first r.last
      r.step := floatLoop_floating rfl hname hx hy hz
  refine ⟨h, hfirst, hlast, hstep, floating_ok _ _ _ passes, ?_⟩
  have hne : ¬ (r.first == r.last) = true := by decide +kernel
  have hup : (compareFloats r.first r.last == some .lt) = true := by
    decide +kernel
  have hstays : r.number true 1 = r.number true 0 := by
    -- between these numbers a step of one is rounded away
    have hbits : (r.first + r.step).toModel = r.first.toModel := by
      decide +kernel
    exact congrArg Float.ofModel hbits
  have hadvances := advances_first hfirst hlast hne
  rw [hup] at hadvances
  have hloop : element s (inner? s 1) n.origin n.trail n.tree m
      = loop s n (contents s (inner? s 1) true n) m := by
    obtain ⟨b, hrange, -⟩ := h
    exact hrange.element (inner? s 1)
  have steady : Within Steady (contents s (inner? s 1) true n) :=
    (lasting_steady.congruence s).contents
      ((lasting_steady.congruence s).inner 1) true n
  rw [hloop]
  have made := h.unfinished steady hstep hne
  rw [hup] at made
  rcases made (hadvances.always hstays)
    with ⟨m', -, hmade⟩ | ⟨e, m', ⟨k, -, m₁, start, -, -, hfail⟩, -⟩
  · exact ⟨_, hmade⟩
  -- the body never fails, so no pass can have been broken off
  · obtain ⟨m'', hok⟩ := floating_ok _ _ _ passes start
    rw [hok] at hfail
    cases hfail

end Stencil.Template
