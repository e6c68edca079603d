/-
Reading expressions. A reader takes an expression off the front of a text and
leaves the rest, or finds none.

Precedence is the nesting of readers: a conditional is tightest around a
chain of the loosest operators, whose operands are chains of the next level,
down to prefix operators, accessors and primary expressions. Where an
expression stands inside brackets the whole grammar starts again, on a text
that is shorter: `nested` is the reader for such a place.

A reader that gives up leaves no trace but its position, so that a text that
is no expression is blamed on its first operand or on what is left behind an
expression.
-/
import Stencil.Expr.Identifier
import Stencil.Expr.Syntax

namespace Stencil.Expr

open Text (isSpace)

/-- Takes something off the front of a text. -/
abbrev Reader (α : Type) := List Char → Option (α × List Char)

-- ================================================================ tokens

def skipSpace (s : List Char) : List Char := s.dropWhile isSpace

/-- The text behind `p`. -/
def strip? (p s : List Char) : Option (List Char) :=
  if p.isPrefixOf s then some (s.drop p.length) else none

/-- The text behind a word that no identifier character follows. -/
def stripWord? (w s : List Char) : Option (List Char) :=
  (strip? w s).filter fun r => !(r.head?.any isIdentifierPart)

/-- The text behind a symbol and the space around it. -/
def mark? (c : Char) (s : List Char) : Option (List Char) :=
  (strip? [c] (skipSpace s)).map skipSpace

/-- An identifier, reserved or not. -/
def readIdentifier : Reader (List Char)
  | [] => none
  | c :: s =>
    if isIdentifierStart c then
      let tail := s.takeWhile isIdentifierPart
      some (c :: tail, s.drop tail.length)
    else none

def Spelling.strip? : Spelling → List Char → Option (List Char)
  | .symbol p, s => Expr.strip? p s
  | .word w, s => stripWord? w s

/-- One of the operators of a level, and the space around it. -/
def readOperator (level : Level) (s : List Char) :
    Option (BinaryOp × List Char) :=
  level.findSome? fun (spelling, op) =>
    (spelling.strip? (skipSpace s)).map fun r => (op, skipSpace r)

/-- A `!` that is not the beginning of `!=`. -/
def stripNot? (s : List Char) : Option (List Char) :=
  (strip? ['!'] s).filter fun r => r.head? != some '='

/-- A prefix operator and the space around it. -/
def readPrefixOp (s : List Char) : Option (UnaryOp × List Char) :=
  let s := skipSpace s
  let found :=
    ((strip? ['-'] s).map fun r => (UnaryOp.minus, r))
      <|> ((stripNot? s).map fun r => (UnaryOp.not, r))
      <|> ((stripWord? ['n', 'o', 't'] s).map fun r => (UnaryOp.not, r))
      <|> ((stripWord? ['e', 'm', 'p', 't', 'y'] s).map
        fun r => (UnaryOp.empty, r))
  found.map fun (op, r) => (op, skipSpace r)

-- ============================================================== literals

/-- The point and the digits behind it, if digits follow. -/
def takeFraction (s : List Char) : List Char :=
  match s with
  | '.' :: r =>
    let digits := r.takeWhile Char.isDigit
    if digits.isEmpty then [] else '.' :: digits
  | _ => []

/-- The exponent part, if it is complete. -/
def takeExponent (s : List Char) : List Char :=
  match s with
  | c :: r =>
    if c = 'e' || c = 'E' then
      let sign :=
        match r with
        | '+' :: _ => ['+']
        | '-' :: _ => ['-']
        | _ => []
      let digits := (r.drop sign.length).takeWhile Char.isDigit
      if digits.isEmpty then [] else c :: (sign ++ digits)
    else []
  | [] => []

/-- The number that digits, fraction and exponent spell: a whole number if it
is written as one and is in range. -/
def numberLiteral (digits fraction exponent : List Char) : Option Literal :=
  let text := digits ++ fraction ++ exponent
  let float := (Number.readFloat? text).map Literal.float
  if fraction.isEmpty && exponent.isEmpty then
    match Number.readWhole? text with
    | some i => some (.int i)
    | none => float
  else float

def readNumber : Reader Literal := fun s =>
  let digits := s.takeWhile Char.isDigit
  if digits.isEmpty then none
  else
    let r := s.drop digits.length
    let fraction := takeFraction r
    let r := r.drop fraction.length
    let exponent := takeExponent r
    (numberLiteral digits fraction exponent).map fun l =>
      (l, r.drop exponent.length)

/-- What a backslash and a character stand for. -/
def unescapeChar : Char → Char
  | 'n' => '\n'
  | 't' => '\t'
  | 'r' => '\r'
  | c => c

/-- The characters of a string up to its closing quote. -/
def readQuoted (quote : Char) : Reader (List Char)
  | [] => none
  | ['\\'] => none
  | '\\' :: c :: s =>
    (readQuoted quote s).map fun (t, r) => (unescapeChar c :: t, r)
  | c :: s =>
    if c = quote then some ([], s)
    else (readQuoted quote s).map fun (t, r) => (c :: t, r)

def readString : Reader String
  | '\'' :: s => (readQuoted '\'' s).map fun (t, r) => (String.ofList t, r)
  | '"' :: s => (readQuoted '"' s).map fun (t, r) => (String.ofList t, r)
  | _ => none

/-- The words that are values. -/
def readConstant : Reader Literal := fun s =>
  ((stripWord? ['t', 'r', 'u', 'e'] s).map fun r => (.bool true, r))
    <|> ((stripWord? ['f', 'a', 'l', 's', 'e'] s).map
      fun r => (.bool false, r))
    <|> ((stripWord? ['n', 'u', 'l', 'l'] s).map fun r => (.null, r))

def readLiteral : Reader Literal := fun s =>
  readNumber s
    <|> ((readString s).map fun (t, r) => (.string t, r))
    <|> readConstant s

-- ================================================================= lists

/-- Items behind separating commas. A comma that no item follows is left. -/
def readMore {α : Type} (item : Reader α) (s : List Char) :
    List α × List Char :=
  match (mark? ',' s).bind item with
  | none => ([], s)
  | some (x, r) =>
    if _ : r.length < s.length then
      let (xs, r) := readMore item r
      (x :: xs, r)
    else ([], s)
termination_by s.length

/-- Items separated by commas, perhaps none. -/
def readItems {α : Type} (item : Reader α) (s : List Char) :
    List α × List Char :=
  match item s with
  | none => ([], s)
  | some (x, r) =>
    let (xs, r) := readMore item r
    (x :: xs, r)

/-- Items between brackets. -/
def readBracketed {α : Type} (opening closing : Char) (item : Reader α) :
    Reader (List α) := fun s => do
  let r ← mark? opening s
  let (xs, r) := readItems item r
  let r ← mark? closing r
  some (xs, r)

-- =============================================================== primary

/-- An expression between parentheses. -/
def readGroup (nested : Reader Term) : Reader Term := fun s => do
  let r ← mark? '(' s
  let (e, r) ← nested r
  let r ← mark? ')' r
  some (e, r)

/-- A key, a colon and an expression. -/
def readEntry (nested : Reader Term) : Reader (String × Term) := fun s => do
  let (k, r) ←
    readString (skipSpace s)
      <|> (readIdentifier (skipSpace s)).map fun (k, r) => (String.ofList k, r)
  let r ← strip? [':'] (skipSpace r)
  let (e, r) ← nested r
  some ((k, e), r)

/-- A function of a namespace applied to arguments. -/
def readCall (nested : Reader Term) : Reader Term := fun s => do
  let (qualifier, r) ← readIdentifier s
  let r ← strip? [':'] r
  let (name, r) ← readIdentifier r
  let (args, r) ← readBracketed '(' ')' nested r
  some (.call (String.ofList qualifier) (String.ofList name) args, r)

/-- An identifier that is not reserved. -/
def readVariable : Reader Term := fun s => do
  let (name, r) ← readIdentifier s
  if isReserved name then none
  else some (.variable (String.ofList name), r)

def readPrimary (nested : Reader Term) : Reader Term := fun s =>
  readGroup nested s
    <|> ((readLiteral s).map fun (l, r) => (.literal l, r))
    <|> ((readBracketed '[' ']' nested s).map fun (es, r) => (.array es, r))
    <|> ((readBracketed '\x7b' '\x7d' (readEntry nested) s).map
      fun (es, r) => (.object (enterAll es), r))
    <|> readCall nested s
    <|> readVariable s

-- ============================================================= accessors

/-- A property or an index of the expression read so far. -/
def readAccessor (nested : Reader Term) (target : Term) : Reader Term :=
  fun s =>
    (do
      let r ← mark? '.' s
      let (name, r) ← readIdentifier r
      some (.property target (String.ofList name), r))
    <|> (do
      let r ← mark? '[' s
      let (i, r) ← nested r
      let r ← mark? ']' r
      some (.index target i, r))

def readAccessors (nested : Reader Term) (target : Term) (s : List Char) :
    Term × List Char :=
  match readAccessor nested target s with
  | none => (target, s)
  | some (e, r) =>
    if _ : r.length < s.length then readAccessors nested e r else (target, s)
termination_by s.length

/-- A primary expression and its accessors. -/
def readPostfix (nested : Reader Term) : Reader Term := fun s => do
  let (e, r) ← readPrimary nested (skipSpace s)
  some (readAccessors nested e (skipSpace r))

-- ============================================================= operators

/-- Prefix operators before an operand. -/
def readUnary (operand : Reader Term) (s : List Char) :
    Option (Term × List Char) :=
  match readPrefixOp s with
  | none => operand s
  | some (op, r) =>
    if _ : r.length < s.length then
      (readUnary operand r).map fun (e, r) => (.unary op e, r)
    else none
termination_by s.length

/-- Operators of one level and their right operands, taken to the left. -/
def readChain (level : Level) (operand : Reader Term) (left : Term)
    (s : List Char) : Term × List Char :=
  match readOperator level s with
  | none => (left, s)
  | some (op, r) =>
    match operand r with
    | none => (left, s)
    | some (right, r) =>
      if _ : r.length < s.length then
        readChain level operand (.binary op left right) r
      else (left, s)
termination_by s.length

def readBinary (level : Level) (operand : Reader Term) : Reader Term :=
  fun s => (operand s).map fun (left, r) => readChain level operand left r

/-- The branches of a conditional. -/
def readBranches (nested : Reader Term) : Reader (Term × Term) := fun s => do
  let r ← mark? '?' s
  let (yes, r) ← nested r
  let r ← mark? ':' r
  let (no, r) ← nested r
  some ((yes, no), r)

/-- An expression whose inner expressions `nested` reads. -/
def readWith (nested : Reader Term) : Reader Term := fun s => do
  let operand := readUnary (readPostfix nested)
  let (test, r) ← levels.foldr readBinary operand s
  match readBranches nested r with
  | some ((yes, no), r) => some (.conditional test yes no, r)
  | none => some (test, r)

/-- An expression at the front of a text. -/
def readTerm (s : List Char) : Option (Term × List Char) :=
  readWith (fun r => if _ : r.length < s.length then readTerm r else none) s
termination_by s.length

-- ============================================================ whole texts

/-- The text from the first operand on. -/
def firstOperand (s : List Char) : List Char :=
  match readPrefixOp s with
  | none => skipSpace s
  | some (_, r) => if _ : r.length < s.length then firstOperand r else r
termination_by s.length

/-- Why no expression begins a text. -/
def operandFaultOf (s : List Char) : ParseFault :=
  let r := firstOperand s
  if (readIdentifier r).isSome then .reserved r else .noOperand r

/-- The expression that a text is, white space around it aside. -/
def parse (text : String) : Except Error Term :=
  let s := Text.trim text.toList
  match readTerm s with
  | some (e, []) => .ok e
  | some (_, rest) => .error (.parse text (.leftOver rest))
  | none => .error (.parse text (operandFaultOf s))

end Stencil.Expr
