/-
Hosts: names, and the numeric addresses of versions 4 and 6, which are
written in one way however they are given.
-/
import Stencil.Text.Search
import Stencil.Url.Name
import Stencil.Url.Percent

namespace Stencil.Url

/-- The pieces between one separating character. -/
def splitAt (separator : Char) (s : List Char) : List (List Char) :=
  Text.pieces (· == separator) s

-- ============================================================== version 4

/-- A number of an address: hexadecimal behind `0x`, octal behind `0`, else
decimal. Nothing behind the mark is zero. -/
def number? (s : List Char) : Option Nat :=
  match s with
  | [] => none
  | '0' :: 'x' :: d => if d.isEmpty then some 0 else Number.natural? 16 d
  | '0' :: 'X' :: d => if d.isEmpty then some 0 else Number.natural? 16 d
  | '0' :: c :: d => Number.natural? 8 (c :: d)
  | d => Number.natural? 10 d

/-- The pieces of a host, one empty piece at its end aside. -/
def addressPieces (s : List Char) : List (List Char) :=
  let ps := splitAt '.' s
  if 1 < ps.length ∧ ps.getLast? = some [] then ps.dropLast else ps

/-- A host whose last piece is a number is an address or nothing. -/
def endsInNumber (s : List Char) : Bool :=
  match (addressPieces s).getLast? with
  | some p => (!p.isEmpty && p.all Char.isDigit) || (number? p).isSome
  | none => false

/-- The value of an address: each number but the last is a byte, and the last
fills the bytes that are left. -/
def addressValue? (numbers : List Nat) : Option Nat :=
  let bytes := numbers.dropLast
  let last := numbers.getLast?.getD 0
  if 4 < numbers.length || bytes.any (255 < ·)
      || Nat.pow 256 (4 - bytes.length) ≤ last then none
  else some (bytes.foldl (fun n b => 256 * n + b) 0
    * Nat.pow 256 (4 - bytes.length) + last)

/-- The bytes of a number, as many as asked for, highest first. -/
def bytesOf : Nat → Nat → List Nat
  | 0, _ => []
  | k + 1, n => bytesOf k (n / 256) ++ [n % 256]

/-- The text of an address of version 4. -/
def address4? (s : List Char) : Option String := do
  let numbers ← (addressPieces s).mapM number?
  let n ← addressValue? numbers
  some (String.intercalate "." ((bytesOf 4 n).map toString))

-- ============================================================== version 6

/-- A byte in decimal without leading zeros. -/
def byte? (s : List Char) : Option Nat := do
  let n ← Number.natural? 10 s
  if n < 256 ∧ (s.length = 1 ∨ s.head? ≠ some '0') then some n else none

/-- Two pieces written as an address of version 4. -/
def embedded? (s : List Char) : Option (List Nat) := do
  match ← (splitAt '.' s).mapM byte? with
  | [a, b, c, d] => some [256 * a + b, 256 * c + d]
  | _ => none

/-- One piece: up to four hexadecimal digits. -/
def piece? (s : List Char) : Option Nat :=
  if s.length ≤ 4 then Number.natural? 16 s else none

/-- The pieces between colons; the last may be an address of version 4 if
`tail` is set. -/
def pieces? (tail : Bool) (s : List Char) : Option (List Nat) :=
  if s.isEmpty then some []
  else
    let groups := splitAt ':' s
    let last := groups.getLast?.getD []
    if tail && last.contains '.' then do
      let front ← groups.dropLast.mapM piece?
      some (front ++ (← embedded? last))
    else groups.mapM piece?

/-- The eight pieces of an address; two colons stand for zeros. -/
def address6? (s : List Char) : Option (List Nat) :=
  match Text.breakOn? [':', ':'] s with
  | none => (pieces? true s).filter (·.length == 8)
  | some (front, back) => do
    let a ← pieces? false front
    let b ← pieces? true back
    if a.length + b.length < 8 then
      some (a ++ List.replicate (8 - a.length - b.length) 0 ++ b)
    else none

/-- How many zeros a list begins with. -/
def zeros (ns : List Nat) : Nat := (ns.takeWhile (· == 0)).length

/-- Where the first of the longest runs of zeros begins, and its length. -/
def longestZeros (ns : List Nat) : Nat × Nat :=
  (List.range ns.length).foldl
    (fun best i =>
      let n := zeros (ns.drop i)
      if best.2 < n then (i, n) else best)
    (0, 0)

def hexPieces (ns : List Nat) : String :=
  String.intercalate ":" (ns.map fun n =>
    String.ofList (Nat.toDigits 16 n))

/-- The text of an address of version 6: of its zeros, the longest run of at
least two is left out. -/
def address6Text (ns : List Nat) : String :=
  let (start, n) := longestZeros ns
  if n < 2 then hexPieces ns
  else hexPieces (ns.take start) ++ "::" ++ hexPieces (ns.drop (start + n))

/-- A host in brackets. -/
def bracketed? (s : List Char) : Option String :=
  if s.getLast? = some ']' then
    (address6? s.dropLast).map fun ns => "[" ++ address6Text ns ++ "]"
  else none

-- ================================================================== hosts

/-- What no host of an address without a special scheme holds. -/
def isForbiddenInHost (c : Char) : Bool :=
  "\x00\t\n\r #/:<>?@[\\]^|".toList.contains c

/-- The host of an address with a special scheme. -/
def specialHost? (s : List Char) : Option String :=
  match s with
  | '[' :: s => bracketed? s
  | s => do
    let name ← Name.ascii? (← unescape? s).toList
    if name.isEmpty then none
    else if endsInNumber name then address4? name
    else some (String.ofList name)

/-- The host of any other address. -/
def plainHost? (s : List Char) : Option String :=
  match s with
  | '[' :: s => bracketed? s
  | s =>
    if s.any isForbiddenInHost then none else some (escape controlsOnly s)

/-- A file is on no host, or on one that is not this machine. -/
def fileHost? (s : List Char) : Option String :=
  if s.isEmpty then some ""
  else (specialHost? s).map fun h => if h = "localhost" then "" else h

end Stencil.Url
