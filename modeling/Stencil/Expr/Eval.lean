/-
The value of an expression in an environment. Operands are evaluated from
left to right; `and`, `or` and the conditional evaluate no more than they
need.
-/
import Stencil.Expr.Library
import Stencil.Expr.Grammar

namespace Stencil.Expr

/-- What the names in an expression mean. -/
structure Environment where
  value? : String → Option Value
  uri? : String → Option String
  library? : String → Option Library

-- ============================================================ arithmetic

/-- The number that an operand stands for. -/
def operand (v : Value) : Except Error Value.Numeric :=
  match v.number? with
  | some n => .ok n
  | none => .error (.type (.arithmetic v.kind))

/-- A result in range, else overflow. -/
def checked : Option Int64 → Except Error Value
  | some i => .ok (.int i)
  | none => .error (.arithmetic .overflow)

def negate (v : Value) : Except Error Value :=
  match v.number? with
  | some (.int i) => checked (Number.neg? i)
  | some (.float f) => .ok (.float (-f))
  | none => .error (.type (.negation v.kind))

/-- The remainder of whole numbers. -/
def wholeRemainder (i j : Int64) : Except Error Value :=
  if j = 0 then .error (.arithmetic .moduloByZero)
  else checked (Number.rem? i j)

/-- An operation that is exact on whole numbers and floating otherwise. -/
def arithmetic (onWhole : Int64 → Int64 → Except Error Value)
    (onFloats : Float → Float → Float) (l r : Value) : Except Error Value := do
  let a ← operand l
  let b ← operand r
  match a, b with
  | .int i, .int j => onWhole i j
  | a, b => .ok (.float (onFloats a.toFloat b.toFloat))

/-- A sum; beside a text it is a concatenation. -/
def add (l r : Value) : Except Error Value :=
  if l.isString || r.isString then .ok (.string (l.display ++ r.display))
  else arithmetic (fun i j => checked (Number.add? i j)) (· + ·) l r

/-- A quotient is always floating. -/
def divide (l r : Value) : Except Error Value := do
  let a ← operand l
  let b ← operand r
  .ok (.float (a.toFloat / b.toFloat))

/-- An operator on two values. -/
def applyBinary (op : BinaryOp) (l r : Value) : Except Error Value :=
  match op with
  | .equals => .ok (.bool (l.equal r))
  | .notEquals => .ok (.bool (!l.equal r))
  | .less => return .bool ((← l.order r) == .lt)
  | .lessOrEqual => return .bool ((← l.order r) != .gt)
  | .greater => return .bool ((← l.order r) == .gt)
  | .greaterOrEqual => return .bool ((← l.order r) != .lt)
  | .plus => add l r
  | .minus =>
    arithmetic (fun i j => checked (Number.sub? i j)) (· - ·) l r
  | .times =>
    arithmetic (fun i j => checked (Number.mul? i j)) (· * ·) l r
  | .divide => divide l r
  | .modulo => arithmetic wholeRemainder Number.remainder l r
  | .and => do
    if ← l.asBool then return .bool (← r.asBool) else return .bool false
  | .or => do
    if ← l.asBool then return .bool true else return .bool (← r.asBool)

def applyUnary (op : UnaryOp) (v : Value) : Except Error Value :=
  match op with
  | .minus => negate v
  | .not => return .bool (!(← v.asBool))
  | .empty => .ok (.bool v.isEmpty)

-- ============================================================ evaluation

/-- The library that a qualifier names. -/
def Environment.libraryOf (env : Environment) (qualifier : String) :
    Except Error Library :=
  match env.uri? qualifier with
  | none => .error (.unknownPrefix qualifier)
  | some uri =>
    match env.library? uri with
    | none => .error (.unknownNamespace uri)
    | some l => .ok l

mutual

def Term.eval (env : Environment) : Term → Except Error Value
  | .literal l => .ok l.value
  | .variable name =>
    match env.value? name with
    | some v => .ok v
    | none => .error (.unknownVariable name)
  | .array es => return .array (← evalItems env es)
  | .object es => return .map (← evalEntries env es)
  | .property e name => do (← e.eval env).property name
  | .index e i => do
    let target ← e.eval env
    let i ← i.eval env
    target.index i
  | .call qualifier name args => do
    let library ← env.libraryOf qualifier
    let args ← evalItems env args
    library.call name args
  | .unary op e => do applyUnary op (← e.eval env)
  | .binary .and l r => do
    if ← (← l.eval env).asBool then return .bool (← (← r.eval env).asBool)
    else return .bool false
  | .binary .or l r => do
    if ← (← l.eval env).asBool then return .bool true
    else return .bool (← (← r.eval env).asBool)
  | .binary op l r => do
    let a ← l.eval env
    let b ← r.eval env
    applyBinary op a b
  | .conditional test yes no => do
    if ← (← test.eval env).asBool then yes.eval env else no.eval env

def evalItems (env : Environment) : List Term → Except Error (List Value)
  | [] => .ok []
  | e :: es => do
    let v ← e.eval env
    let vs ← evalItems env es
    .ok (v :: vs)

def evalEntries (env : Environment) :
    List (String × Term) → Except Error (List (String × Value))
  | [] => .ok []
  | (k, e) :: es => do
    let v ← e.eval env
    let vs ← evalEntries env es
    .ok ((k, v) :: vs)

end

/-- The value of a text as an expression. -/
def evaluate (env : Environment) (text : String) : Except Error Value := do
  (← parse text).eval env

end Stencil.Expr
