/-
Expressions as trees, the spellings of their operators, and the precedence of
the binary ones as a list of levels, loosest first.
-/
import Stencil.Expr.Value

namespace Stencil.Expr

inductive Literal where
  | null
  | bool (b : Bool)
  | int (i : Int64)
  | float (f : Float)
  | string (s : String)

def Literal.value : Literal → Value
  | .null => .null
  | .bool b => .bool b
  | .int i => .int i
  | .float f => .float f
  | .string s => .string s

inductive UnaryOp where
  | minus
  | not
  | empty
deriving DecidableEq, Repr

inductive BinaryOp where
  | or
  | and
  | equals
  | notEquals
  | less
  | lessOrEqual
  | greater
  | greaterOrEqual
  | plus
  | minus
  | times
  | divide
  | modulo
deriving DecidableEq, Repr

inductive Term where
  | literal (l : Literal)
  | variable (name : String)
  | array (items : List Term)
  | object (entries : List (String × Term))
  | property (target : Term) (name : String)
  | index (target i : Term)
  | call (qualifier name : String) (args : List Term)
  | unary (op : UnaryOp) (e : Term)
  | binary (op : BinaryOp) (l r : Term)
  | conditional (test yes no : Term)

instance : Inhabited Term := ⟨.literal .null⟩

-- ============================================================= spellings

/-- An operator is spelled by symbols, or by a word that no identifier
character may follow. -/
inductive Spelling where
  | symbol (text : List Char)
  | word (text : List Char)
deriving DecidableEq, Repr

/-- The binary operators of one precedence with their spellings, in the order
in which they are tried. -/
abbrev Level := List (Spelling × BinaryOp)

def orLevel : Level :=
  [(.symbol ['|', '|'], .or), (.word ['o', 'r'], .or)]

def andLevel : Level :=
  [(.symbol ['&', '&'], .and), (.word ['a', 'n', 'd'], .and)]

def equalityLevel : Level :=
  [(.symbol ['=', '='], .equals), (.word ['e', 'q'], .equals),
   (.symbol ['!', '='], .notEquals), (.word ['n', 'e'], .notEquals)]

def relationalLevel : Level :=
  [(.symbol ['<', '='], .lessOrEqual), (.word ['l', 'e'], .lessOrEqual),
   (.symbol ['>', '='], .greaterOrEqual), (.word ['g', 'e'], .greaterOrEqual),
   (.symbol ['<'], .less), (.word ['l', 't'], .less),
   (.symbol ['>'], .greater), (.word ['g', 't'], .greater)]

def additiveLevel : Level :=
  [(.symbol ['+'], .plus), (.symbol ['-'], .minus)]

def multiplicativeLevel : Level :=
  [(.symbol ['*'], .times),
   (.symbol ['/'], .divide), (.word ['d', 'i', 'v'], .divide),
   (.symbol ['%'], .modulo), (.word ['m', 'o', 'd'], .modulo)]

/-- The levels of the binary operators, loosest first; all associate to the
left. -/
def levels : List Level :=
  [orLevel, andLevel, equalityLevel, relationalLevel, additiveLevel,
   multiplicativeLevel]

end Stencil.Expr
