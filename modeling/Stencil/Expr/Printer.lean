/-
Expressions in writing, with no more parentheses than precedence asks for:
around what is looser than the place where it stands. A chain of operators of
one level needs none on its left.

Floats are left to their display, which is not always a literal.
-/
import Stencil.Expr.Syntax

namespace Stencil.Expr

/-- How tightly an expression holds together, loosest first. -/
def BinaryOp.level : BinaryOp → Nat
  | .or => 1
  | .and => 2
  | .equals => 3
  | .notEquals => 3
  | .less => 4
  | .lessOrEqual => 4
  | .greater => 4
  | .greaterOrEqual => 4
  | .plus => 5
  | .minus => 5
  | .times => 6
  | .divide => 6
  | .modulo => 6

def unaryLevel : Nat := 7

def postfixLevel : Nat := 8

def Term.level : Term → Nat
  | .conditional .. => 0
  | .binary op .. => op.level
  | .unary .. => unaryLevel
  | .property .. => postfixLevel
  | .index .. => postfixLevel
  | _ => postfixLevel + 1

-- ============================================================== spellings

/-- The symbol of an operator. -/
def BinaryOp.symbol : BinaryOp → String
  | .or => "||"
  | .and => "&&"
  | .equals => "=="
  | .notEquals => "!="
  | .less => "<"
  | .lessOrEqual => "<="
  | .greater => ">"
  | .greaterOrEqual => ">="
  | .plus => "+"
  | .minus => "-"
  | .times => "*"
  | .divide => "/"
  | .modulo => "%"

def UnaryOp.symbol : UnaryOp → String
  | .minus => "-"
  | .not => "!"
  | .empty => "empty "

/-- A character of a string literal. -/
def quotedChar : Char → List Char
  | '\\' => ['\\', '\\']
  | '\'' => ['\\', '\'']
  | '\n' => ['\\', 'n']
  | '\t' => ['\\', 't']
  | '\r' => ['\\', 'r']
  | c => [c]

/-- A string literal. -/
def quoted (s : String) : String :=
  "'" ++ String.ofList (s.toList.flatMap quotedChar) ++ "'"

def Literal.print : Literal → String
  | .null => "null"
  | .bool b => if b then "true" else "false"
  | .int i => Number.text i
  | .float f => Number.floatText f
  | .string s => quoted s

/-- Text in parentheses, if it needs them. -/
def parenthesized (needed : Bool) (s : String) : String :=
  if needed then "(" ++ s ++ ")" else s

-- ================================================================ printing

mutual

/-- An expression by itself. -/
def Term.print : Term → String
  | .literal l => l.print
  | .variable name => name
  | .array es => "[" ++ String.intercalate ", " (printItems es) ++ "]"
  | .object es =>
    "\x7b" ++ String.intercalate ", " (printEntries es) ++ "\x7d"
  | .property e name =>
    parenthesized (e.level < postfixLevel) e.print ++ "." ++ name
  | .index e i =>
    parenthesized (e.level < postfixLevel) e.print ++ "[" ++ i.print ++ "]"
  | .call qualifier name args =>
    qualifier ++ ":" ++ name
      ++ "(" ++ String.intercalate ", " (printItems args) ++ ")"
  | .unary op e =>
    op.symbol ++ parenthesized (e.level < unaryLevel) e.print
  | .binary op l r =>
    parenthesized (l.level < op.level) l.print ++ " " ++ op.symbol ++ " "
      ++ parenthesized (r.level < op.level + 1) r.print
  | .conditional test yes no =>
    parenthesized (test.level < 1) test.print ++ " ? " ++ yes.print ++ " : "
      ++ no.print

def printItems : List Term → List String
  | [] => []
  | e :: es => e.print :: printItems es

def printEntries : List (String × Term) → List String
  | [] => []
  | (k, e) :: es => (quoted k ++ ": " ++ e.print) :: printEntries es

end

end Stencil.Expr
