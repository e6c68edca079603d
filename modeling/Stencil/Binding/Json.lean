/-
Values from JSON. The syntax is strict. Whole numbers stay whole in the range
of 64 bits. Any other number is its leading digits, as many as 64 bits hold,
scaled by a power of ten in floating arithmetic; one too large for a float is
no number.
-/
import Stencil.Expr.Grammar
import Stencil.Number.Radix
import Stencil.Text.Units

namespace Stencil.Binding.Json

open Stencil.Expr (Value Reader strip? enterAll)
open Text (isSpace)

def skipSpace (s : List Char) : List Char := s.dropWhile isSpace

-- =============================================================== numbers

/-- The digits of a number: before the point, behind it, and the exponent.
A part that is not written is `none`. -/
structure Parts where
  negative : Bool
  whole : List Char
  fraction : Option (List Char)
  exponent : Option (Bool × List Char)
deriving DecidableEq, Repr

/-- Digits, at least one. -/
def readDigits : Reader (List Char) := fun s =>
  let digits := s.takeWhile Char.isDigit
  if digits.isEmpty then none else some (digits, s.drop digits.length)

/-- Digits without a leading zero. -/
def readWholePart : Reader (List Char) := fun s => do
  let (digits, r) ← readDigits s
  if digits.head? = some '0' && digits.length != 1 then none
  else some (digits, r)

def readFractionPart : Reader (Option (List Char))
  | '.' :: s => do
    let (digits, r) ← readDigits s
    some (some digits, r)
  | s => some (none, s)

def readExponentPart : Reader (Option (Bool × List Char))
  | c :: s =>
    if c = 'e' || c = 'E' then do
      let (negative, s) :=
        match s with
        | '-' :: r => (true, r)
        | '+' :: r => (false, r)
        | r => (false, r)
      let (digits, r) ← readDigits s
      some (some (negative, digits), r)
    else some (none, c :: s)
  | [] => some (none, [])

def readParts : Reader Parts := fun s => do
  let negative := s.head? = some '-'
  let (whole, r) ← readWholePart (if negative then s.drop 1 else s)
  let (fraction, r) ← readFractionPart r
  let (exponent, r) ← readExponentPart r
  some (⟨negative, whole, fraction, exponent⟩, r)

/-- Leading digits are kept below this. -/
def digitLimit : Nat := Nat.pow 2 64

/-- Leading digits, and a power of ten for what came behind them. -/
structure Scaled where
  digits : Nat
  power : Int
deriving DecidableEq, Repr

/-- Takes digits before the point while they fit; each further digit is
counted instead. -/
def takeWhole (n : Nat) : List Char → Scaled
  | [] => ⟨n, 0⟩
  | c :: s =>
    let next := n * 10 + (c.toNat - '0'.toNat)
    if next < digitLimit then takeWhole next s else ⟨n, (s.length + 1 : Nat)⟩

/-- Takes digits behind the point while they fit, and drops the rest. -/
def takeFraction (a : Scaled) : List Char → Scaled
  | [] => a
  | c :: s =>
    let next := a.digits * 10 + (c.toNat - '0'.toNat)
    if next < digitLimit then takeFraction ⟨next, a.power - 1⟩ s else a

/-- The greatest power of ten that a float holds. -/
def greatestPower : Nat := 308

def powerOfTen (k : Nat) : Float := Number.ofDecimal false 1 k

/-- A float divided by a power of ten, the greatest one at a time. -/
def scaleDown (f : Float) (k : Nat) : Float :=
  if k ≤ greatestPower then f / powerOfTen k
  else if f == 0 then f
  else scaleDown (f / powerOfTen greatestPower) (k - greatestPower)
termination_by k
decreasing_by
  simp only [greatestPower] at *
  omega

/-- A float multiplied by a power of ten, if the result is finite. -/
def scaleUp? (f : Float) (k : Nat) : Option Float :=
  if k ≤ greatestPower then (some (f * powerOfTen k)).filter Number.isFinite
  else if f == 0 then some f
  else none

def Scaled.toFloat? (a : Scaled) : Option Float :=
  let f := Number.round .positive a.digits 0
  if 0 ≤ a.power then scaleUp? f a.power.toNat
  else some (scaleDown f (-a.power).toNat)

/-- Exponents are read in 32 bits; a larger one makes a number zero or too
large. -/
def exponentLimit : Nat := Nat.pow 2 31

/-- The magnitude of a number that is not whole. -/
def magnitude? (p : Parts) : Option Float :=
  let a := takeFraction (takeWhole 0 p.whole) (p.fraction.getD [])
  match p.exponent with
  | none => a.toFloat?
  | some (negative, digits) =>
    let e := Number.ofDigits digits
    if e < exponentLimit then
      Scaled.toFloat?
        ⟨a.digits, if negative then a.power - e else a.power + e⟩
    else if a.digits != 0 && !negative then none
    else some 0

/-- The value that a number spells. Minus zero is the float. -/
def Parts.value? (p : Parts) : Option Value :=
  let n := (Number.ofDigits p.whole : Int)
  let exact :=
    if p.fraction.isSome || p.exponent.isSome || (p.negative && n == 0)
    then none
    else Number.whole? (if p.negative then -n else n)
  match exact with
  | some i => some (.int i)
  | none =>
    (magnitude? p).map fun f => .float (if p.negative then -f else f)

-- =============================================================== strings

/-- Four hexadecimal digits. -/
def readUnit : Reader Nat := fun s =>
  let digits := s.take 4
  if digits.length = 4 then
    (Number.natural? 16 digits).map fun n => (n, s.drop 4)
  else none

/-- The character of a pair of units, or of a single one that is no
surrogate. -/
def readEscapedChar : Reader Char := fun s => do
  let (n, r) ← readUnit s
  if Text.isHighSurrogate n then
    let r ← strip? ['\\', 'u'] r
    let (m, r) ← readUnit r
    if Text.isLowSurrogate m then
      let c ← Number.charOfCode? (Text.codeOfPair n m)
      some (c, r)
    else none
  else
    let c ← Number.charOfCode? n
    some (c, r)

/-- What a backslash and a character stand for. -/
def shortEscape? : Char → Option Char
  | '"' => some '"'
  | '\\' => some '\\'
  | '/' => some '/'
  | 'b' => some '\x08'
  | 'f' => some '\x0c'
  | 'n' => some '\n'
  | 'r' => some '\r'
  | 't' => some '\t'
  | _ => none

/-- One character of a string, escaped or not; controls have to be. -/
def readStringChar : Reader Char
  | '\\' :: 'u' :: s => readEscapedChar s
  | '\\' :: c :: s => (shortEscape? c).map fun d => (d, s)
  | c :: s => if c = '\\' || c = '"' || c.toNat < 32 then none else some (c, s)
  | [] => none

/-- The characters of a string through its closing quote. -/
def readStringTail (s : List Char) : Option (List Char × List Char) :=
  match strip? ['"'] s with
  | some r => some ([], r)
  | none =>
    match readStringChar s with
    | none => none
    | some (c, r) =>
      if _ : r.length < s.length then
        (readStringTail r).map fun (cs, r) => (c :: cs, r)
      else none
termination_by s.length

def readString : Reader String := fun s => do
  let r ← strip? ['"'] s
  let (cs, r) ← readStringTail r
  some (String.ofList cs, r)

-- ================================================================ values

/-- Items behind the first one, each behind a comma, and the closing
bracket. -/
def readRest {α : Type} (closing : Char) (item : Reader α) (s : List Char) :
    Option (List α × List Char) :=
  match strip? [closing] (skipSpace s) with
  | some r => some ([], r)
  | none =>
    match (strip? [','] (skipSpace s)).bind item with
    | none => none
    | some (x, r) =>
      if _ : r.length < s.length then
        (readRest closing item r).map fun (xs, r) => (x :: xs, r)
      else none
termination_by s.length

/-- Items between brackets, separated by commas. -/
def readList {α : Type} (opening closing : Char) (item : Reader α) :
    Reader (List α) := fun s => do
  let r ← strip? [opening] s
  match strip? [closing] (skipSpace r) with
  | some r => some ([], r)
  | none => do
    let (x, r) ← item r
    let (xs, r) ← readRest closing item r
    some (x :: xs, r)

def readEntry (nested : Reader Value) : Reader (String × Value) := fun s => do
  let (k, r) ← readString (skipSpace s)
  let r ← strip? [':'] (skipSpace r)
  let (v, r) ← nested r
  some ((k, v), r)

def readScalar : Reader Value := fun s =>
  ((strip? ['n', 'u', 'l', 'l'] s).map fun r => (.null, r))
    <|> ((strip? ['t', 'r', 'u', 'e'] s).map fun r => (.bool true, r))
    <|> ((strip? ['f', 'a', 'l', 's', 'e'] s).map fun r => (.bool false, r))
    <|> ((readString s).map fun (t, r) => (.string t, r))
    <|> (do
      let (p, r) ← readParts s
      let v ← p.value?
      some (v, r))

/-- A value that nests at most so deep. -/
def readValue : Nat → Reader Value
  | 0, s => readScalar (skipSpace s)
  | depth + 1, s =>
    readScalar (skipSpace s)
      <|> ((readList '[' ']' (readValue depth) (skipSpace s)).map
        fun (vs, r) => (.array vs, r))
      <|> ((readList '\x7b' '\x7d' (readEntry (readValue depth))
        (skipSpace s)).map fun (es, r) => (.map (enterAll es), r))

/-- Arrays and objects nest no deeper. -/
def depthLimit : Nat := 127

/-- The value of a JSON text, if it is one. -/
def read? (text : String) : Option Value :=
  match readValue depthLimit text.toList with
  | some (v, r) => if (skipSpace r).isEmpty then some v else none
  | none => none

end Stencil.Binding.Json
