/-
Values from the command line: the words for null and the booleans in any
case, whole numbers in decimal, hexadecimal or octal, floats, and else the
text itself.
-/
import Stencil.Expr.Value
import Stencil.Number.Radix

namespace Stencil.Binding.Argument

open Stencil.Expr (Value)

/-- The base that the beginning of a number announces, and its digits. -/
def splitBase : List Char → Nat × List Char
  | '0' :: 'x' :: s => (16, s)
  | '0' :: 'X' :: s => (16, s)
  | '#' :: s => (16, s)
  | '0' :: c :: s => (8, c :: s)
  | s => (10, s)

/-- A whole number: one sign at most, a base, and digits. -/
def readWhole? (s : List Char) : Option Int64 := do
  let (negative, s) := Number.splitSign s
  let (base, digits) := splitBase s
  let n ← Number.natural? base digits
  Number.whole? (if negative then -(n : Int) else n)

/-- The value that an argument denotes. -/
def read (text : String) : Value :=
  let s := text.toList
  if Text.sameIgnoringCase s "null".toList then .null
  else if Text.sameIgnoringCase s "true".toList then .bool true
  else if Text.sameIgnoringCase s "false".toList then .bool false
  else
    match readWhole? s with
    | some i => .int i
    | none =>
      match Number.readFloat? s with
      | some f => .float f
      | none => .string text

end Stencil.Binding.Argument
