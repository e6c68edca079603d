/-
Why an expression has no value, and the wording of each cause.
-/
import Stencil.Text.Quoted

namespace Stencil.Expr

/-- The kinds of values. -/
inductive Kind where
  | null
  | boolean
  | integer
  | float
  | string
  | array
  | map
  | element
deriving DecidableEq, Repr

def Kind.name : Kind → String
  | .null => "null"
  | .boolean => "boolean"
  | .integer => "integer"
  | .float => "float"
  | .string => "string"
  | .array => "array"
  | .map => "map"
  | .element => "element"

/-- Why a text is no expression: something is left behind one, or an operand
is missing, or a reserved word stands where an operand belongs. The text from
there on is kept. -/
inductive ParseFault where
  | leftOver (rest : List Char)
  | noOperand (rest : List Char)
  | reserved (rest : List Char)
deriving DecidableEq, Repr

/-- How a failure to read an operand is reported. -/
def operandFault (rest : List Char) (code : String) : String :=
  "Parsing Error: Error \x7b input: " ++ String.ofList (Text.Quoted.encode rest)
    ++ ", code: " ++ code ++ " \x7d"

def ParseFault.message : ParseFault → String
  | .leftOver rest => s!"Unexpected input at '{String.ofList rest}'"
  | .noOperand rest => operandFault rest "TakeWhile1"
  | .reserved rest => operandFault rest "Verify"

/-- A value of the wrong kind for an operation. -/
inductive TypeFault where
  | arithmetic (k : Kind)
  | negation (k : Kind)
  | index (k : Kind)
  | property (name : String) (k : Kind)
  | compare (l r : Kind)
deriving DecidableEq, Repr

def TypeFault.message : TypeFault → String
  | .arithmetic k => s!"Can't use {k.name} in arithmetic"
  | .negation k => s!"Can't negate {k.name}"
  | .index k => s!"Can't index into {k.name}"
  | .property name k => s!"Can't access property '{name}' of {k.name}"
  | .compare l r => s!"Can't compare {l.name} with {r.name}"

inductive ArithmeticFault where
  | moduloByZero
  | overflow
  | notANumber
deriving DecidableEq, Repr

def ArithmeticFault.message : ArithmeticFault → String
  | .moduloByZero => "Modulo by zero"
  | .overflow => "integer overflow"
  | .notANumber => "Can't compare NaN"

/-- What is wrong with the arguments of a function. -/
inductive ArgumentFault where
  | count (expected got : Nat)
  | cannotJoin (k : Kind)
deriving DecidableEq, Repr

def ArgumentFault.message : ArgumentFault → String
  | .count expected got => s!"expected {expected} argument(s), got {got}"
  | .cannotJoin k => s!"can't join {k.name}"

inductive Error where
  | parse (text : String) (fault : ParseFault)
  | unterminated (text : String)
  | unknownVariable (name : String)
  | unknownPrefix (qualifier : String)
  | unknownNamespace (uri : String)
  | unknownFunction (name : String)
  | type (fault : TypeFault)
  | coercion (source target : Kind)
  | arithmetic (fault : ArithmeticFault)
  | function (name : String) (fault : ArgumentFault)
deriving DecidableEq, Repr

def Error.message : Error → String
  | .parse text fault =>
    s!"Expression parse error in '{text}': {fault.message}"
  | .unterminated text => s!"Unterminated expression in '{text}'"
  | .unknownVariable name => s!"Identifier not recognised - {name}"
  | .unknownPrefix qualifier =>
    s!"Namespace prefix not recognised - {qualifier}"
  | .unknownNamespace uri =>
    s!"No implementation registered for namespace - {uri}"
  | .unknownFunction name => s!"Function not recognised - {name}"
  | .type fault => s!"Type error: {fault.message}"
  | .coercion source target =>
    s!"Can't convert {source.name} to {target.name}"
  | .arithmetic fault => s!"Arithmetic error: {fault.message}"
  | .function name fault => s!"Function '{name}' error: {fault.message}"

end Stencil.Expr
