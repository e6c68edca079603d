/-
Loops: over the items of a collection, or over a range of numbers from a
first towards a last one that is left out. A range is floating if one of its
bounds is.

A range steps until it reaches its last number. A step of a whole range that
64 bits do not hold would be beyond that number, so it ends the range too. Whole
steps get closer to it, so there is an end of them; a floating range steps
within the passes that the settings grant.
-/
import Stencil.Template.Machine

namespace Stencil.Template

open Stencil.Expr (Value)
open Markup (Node)

variable {σ : Type}

-- ============================================================= attributes

/-- What a loop element says. -/
structure LoopSpec where
  name : Option String
  collection : Option String
  first : Option String
  last : Option String
  step : Option String
  index : Option String

def loopSpec (n : Node) : Reading LoopSpec := do
  let name ← identifier n "name" .loopName
  let collection ← substituted n "collection"
  let first ← substituted n "from"
  let last ← substituted n "to"
  let step ← substituted n "by"
  let index ← identifier n "index" .loopIndex
  return ⟨name, collection, first, last, step, index⟩

/-- The values of the bounds of a range. -/
structure Bounds where
  first : Option Value
  last : Option Value
  step : Option Value

/-- The value of a bound, if it is given. -/
def bound (n : Node) (name : String) : Option String → Reading (Option Value)
  | none => return none
  | some text => do return some (← valueOf n name text)

def bounds (n : Node) (spec : LoopSpec) : Reading Bounds := do
  let first ← bound n "from" spec.first
  let last ← bound n "to" spec.last
  let step ← bound n "by" spec.step
  return ⟨first, last, step⟩

/-- The kinds of loops. -/
inductive LoopKind where
  | items (values : List Value)
  | range (bounds : Bounds)

def collectionItems (n : Node) (text : String) : Reading (List Value) := do
  let v ← valueOf n "collection" text
  match v.items? with
  | some items => return items
  | none => throw (.on n "collection" (.loopCollection v.kind))

/-- What a loop goes over. -/
def loopKind (n : Node) (spec : LoopSpec) : Reading LoopKind := do
  let numeric := spec.first.isSome || spec.last.isSome || spec.step.isSome
  match spec.collection with
  | some text =>
    if numeric then throw (.about n .loopAttributes)
    else return .items (← collectionItems n text)
  | none =>
    if !numeric then throw (.about n .loopKind)
    else if spec.index.isSome then throw (.about n .loopAttributes)
    else return .range (← bounds n spec)

-- ================================================================= ranges

def wholeBound (n : Node) (name : String) (default : Int64) :
    Option Value → Reading Int64
  | none => return default
  | some v =>
    match v.asInt with
    | .ok i => return i
    | .error _ => throw (.on n name (.loopBound name))

def floatBound (n : Node) (name : String) (default : Float) :
    Option Value → Reading Float
  | none => return default
  | some v =>
    match v.asFloat with
    | .ok f => return f
    | .error _ => throw (.on n name (.loopBound name))

/-- A range of numbers; the step is how far each pass goes towards the last
one. -/
structure Range (α : Type) where
  first : α
  last : α
  step : α

/-- A range of whole numbers that goes forward. -/
structure WholeRange extends Range Int64 where
  positive : 0 < step.toInt

def wholeRange (n : Node) (b : Bounds) : Reading WholeRange := do
  let first ← wholeBound n "from" 0 b.first
  let last ← wholeBound n "to" 0 b.last
  let step ← wholeBound n "by" 1 b.step
  if h : step.toInt ≤ 0 then throw (.on n "by" (.loopBound "by"))
  else return ⟨⟨first, last, step⟩, Int.not_le.1 h⟩

/-- The number is greater than zero. -/
def isPositive (f : Float) : Bool :=
  Number.compareFloats f (Number.ofWhole 0) == some .gt

def floatRange (n : Node) (b : Bounds) : Reading (Range Float) := do
  let first ← floatBound n "from" (Number.ofWhole 0) b.first
  let last ← floatBound n "to" (Number.ofWhole 0) b.last
  let step ← floatBound n "by" (Number.ofWhole 1) b.step
  if isPositive step then return ⟨first, last, step⟩
  else throw (.on n "by" (.loopBound "by"))

/-- A bound is a float. -/
def Bounds.isFloating (b : Bounds) : Bool :=
  b.first.any (·.isFloating) || b.last.any (·.isFloating)
    || b.step.any (·.isFloating)

namespace WholeRange

/-- The range goes up to its last number, and not down. -/
def isUp (r : WholeRange) : Bool := r.first < r.last

/-- The number a step behind another, if there is one before the last. -/
def next? (r : WholeRange) (i : Int64) : Option Int64 :=
  if r.isUp then (Number.add? i r.step).filter (· < r.last)
  else (Number.sub? i r.step).filter (r.last < ·)

/-- What a step adds to a number. -/
def stride (r : WholeRange) : Int :=
  if r.isUp then r.step.toInt else -r.step.toInt

/-- How far it still is from a number to the last one. -/
def remaining (r : WholeRange) (i : Int64) : Int :=
  if r.isUp then r.last.toInt - i.toInt else i.toInt - r.last.toInt

theorem next?_eq_some {r : WholeRange} {i j : Int64} :
    r.next? i = some j
      ↔ j.toInt = i.toInt + r.stride ∧ 0 < r.remaining j := by
  unfold next? stride remaining
  cases r.isUp with
  | true =>
    simp only [if_true, Number.add?, Option.filter_eq_some_iff,
      Number.whole?_eq_some, decide_eq_true_iff, Int64.lt_iff_toInt_lt]
    omega
  | false =>
    simp only [Bool.false_eq_true, if_false, Number.sub?,
      Option.filter_eq_some_iff, Number.whole?_eq_some, decide_eq_true_iff,
      Int64.lt_iff_toInt_lt]
    omega

/-- A step leaves that much less. -/
theorem remaining_of_toInt {r : WholeRange} {i j : Int64}
    (h : j.toInt = i.toInt + r.stride) :
    r.remaining j = r.remaining i - r.step.toInt := by
  unfold stride at h
  unfold remaining
  cases hup : r.isUp with
  | true =>
    simp only [hup, if_true] at h ⊢
    omega
  | false =>
    simp only [hup, Bool.false_eq_true, if_false] at h ⊢
    omega

theorem remaining_next? {r : WholeRange} {i j : Int64}
    (h : r.next? i = some j) : (r.remaining j).toNat < (r.remaining i).toNat := by
  obtain ⟨hj, ahead⟩ := next?_eq_some.1 h
  have less := remaining_of_toInt hj
  have positive := r.positive
  omega

end WholeRange

-- ================================================================= passes

/-- A pass for each item, numbered from `i`. -/
def itemPasses (n : Node) (spec : LoopSpec) (pass : Run σ Unit) :
    Nat → List Value → Run σ Unit
  | _, [] => pure ()
  | i, v :: vs => do
    bindOptional n spec.name v
    bindOptional n spec.index (.int (Int64.ofNat i))
    pass
    itemPasses n spec pass (i + 1) vs

/-- Passes from a number on, each a step further, until the range ends. -/
def passesFrom (n : Node) (name : Option String) (r : WholeRange)
    (pass : Run σ Unit) (i : Int64) : Run σ Unit := do
  bindOptional n name (.int i)
  pass
  (match _h : r.next? i with
  | some j => passesFrom n name r pass j
  | none => pure ())
termination_by (r.remaining i).toNat
decreasing_by exact WholeRange.remaining_next? ‹_›

def runWhole (n : Node) (name : Option String) (r : WholeRange)
    (pass : Run σ Unit) : Run σ Unit :=
  passesFrom n name r pass r.first

/-- A step towards the last number. -/
def Range.next (r : Range Float) (up : Bool) (x : Float) : Float :=
  if up then x + r.step else x - r.step

/-- The number has not reached the last one. -/
def Range.isInside (r : Range Float) (up : Bool) (x : Float) : Bool :=
  Number.compareFloats x r.last == some (if up then .lt else .gt)

/-- Passes from a number on until the range ends, up to `fuel` of them. -/
def floatPasses (n : Node) (name : Option String) (r : Range Float)
    (up : Bool) (pass : Run σ Unit) : Nat → Float → Run σ Unit
  | 0, _ => throw .unfinished
  | fuel + 1, x => do
    bindOptional n name (.float x)
    pass
    let next := r.next up x
    if r.isInside up next then floatPasses n name r up pass fuel next
    else pure ()

def runFloat (s : Settings σ) (n : Node) (name : Option String)
    (r : Range Float) (pass : Run σ Unit) : Run σ Unit :=
  let up := Number.compareFloats r.first r.last == some .lt
  floatPasses n name r up pass s.passes r.first

-- ================================================================== loops

/-- A loop: one scope for all its passes. An empty range opens none. -/
def loop (s : Settings σ) (n : Node) (pass : Run σ Unit) : Run σ Unit := do
  let spec ← read (loopSpec n)
  match ← read (loopKind n spec) with
  | .items values => inScope n (itemPasses n spec pass 0 values)
  | .range b =>
    if b.isFloating then
      let r ← read (floatRange n b)
      if r.first == r.last then pure ()
      else inScope n (runFloat s n spec.name r pass)
    else
      let r ← read (wholeRange n b)
      if r.first = r.last then pure ()
      else inScope n (runWhole n spec.name r pass)

end Stencil.Template
