/-
Names with characters beyond ASCII, written in ASCII: first the characters
that are ASCII anyway, then for each other character, in rising order, how
far it is from the one before. Distances are numbers of variable length in
base 36, whose digits adapt to the distances met.
-/
import Stencil.Number.Radix

namespace Stencil.Url.Punycode

def digit (d : Nat) : Char :=
  if d < 26 then Char.ofNat (0x61 + d) else Char.ofNat (0x30 + d - 26)

/-- How often a distance is divided by 35 to be small, and what is left. -/
def shrink (distance : Nat) : Nat × Nat :=
  if 455 < distance then
    let (k, rest) := shrink (distance / 35)
    (k + 1, rest)
  else (0, distance)
termination_by distance
decreasing_by omega

/-- The bias behind a distance, the first damped more than the others, when
`count` characters are written. -/
def adapt (distance count : Nat) (first : Bool) : Nat :=
  let d := if first then distance / 700 else distance / 2
  let (k, rest) := shrink (d + d / count)
  36 * k + 36 * rest / (rest + 38)

/-- The least digit of a place that ends a number. -/
def threshold (bias place : Nat) : Nat :=
  if place ≤ bias then 1 else if bias + 26 ≤ place then 26 else place - bias

theorem threshold_pos (bias place : Nat) : 0 < threshold bias place := by
  simp only [threshold]
  split
  · omega
  · split <;> omega

/-- A distance as digits, from a place on. -/
def digits (bias place q : Nat) : List Char :=
  let t := threshold bias place
  if q < t then [digit q]
  else
    digit (t + (q - t) % (36 - t))
      :: digits bias (place + 36) ((q - t) / (36 - t))
termination_by q
decreasing_by
  have := threshold_pos bias place
  have := Nat.div_le_self (q - threshold bias place)
    (36 - threshold bias place)
  omega

/-- What is written so far: the distance not yet written, the bias, how many
characters are written, and the digits. -/
structure Progress where
  distance : Nat
  bias : Nat
  written : Nat
  basic : Nat
  output : List Char

/-- One character of the name, while the characters of code `code` are being
written. -/
def step (code : Nat) (p : Progress) (c : Nat) : Progress :=
  if c < code then { p with distance := p.distance + 1 }
  else if c = code then
    { p with
      distance := 0
      bias := adapt p.distance (p.written + 1) (p.written == p.basic)
      written := p.written + 1
      output := p.output ++ digits p.bias 36 p.distance }
  else p

/-- Writes the characters of each code in turn; `least` is the least code
that the next could have been. -/
def writeCodes (name : List Nat) (least : Nat) (p : Progress) :
    List Nat → Progress
  | [] => p
  | code :: codes =>
    let p := { p with
      distance := p.distance + (code - least) * (p.written + 1) }
    let p := name.foldl (step code) p
    writeCodes name (code + 1) { p with distance := p.distance + 1 } codes

/-- The codes beyond ASCII, each once, in rising order. -/
def codesBeyondAscii (name : List Nat) : List Nat :=
  ((name.filter (0x80 ≤ ·)).mergeSort (· ≤ ·)).eraseDups

/-- A name in ASCII. -/
def encode (name : List Char) : List Char :=
  let basic := name.filter (·.toNat < 0x80)
  let codes := name.map Char.toNat
  let start : Progress :=
    ⟨0, 72, basic.length, basic.length,
      if basic.isEmpty then [] else basic ++ ['-']⟩
  (writeCodes codes 0x80 start (codesBeyondAscii codes)).output

-- ================================================================ reading

/-- The value of a digit, a letter in either case. -/
def digitValue? (c : Char) : Option Nat :=
  if c.isLower then some (c.toNat - 0x61)
  else if c.isUpper then some (c.toNat - 0x41)
  else if c.isDigit then some (c.toNat - 0x30 + 26)
  else none

/-- No number is as great as this. -/
def numberLimit : Nat := 0x100000000

/-- A distance put to a number, from a place whose digits weigh `weight`, and
the text behind it. -/
def readDistance? (bias place weight n : Nat) :
    List Char → Option (Nat × List Char)
  | [] => none
  | c :: s => do
    let d ← digitValue? c
    let t := threshold bias place
    if d < t then some (n + d * weight, s)
    else if numberLimit ≤ weight * (36 - t) then none
    else
      readDistance? bias (place + 36) (weight * (36 - t)) (n + d * weight) s

theorem readDistance?_length {bias place weight n m : Nat}
    {s rest : List Char}
    (h : readDistance? bias place weight n s = some (m, rest)) :
    rest.length < s.length := by
  induction s generalizing place weight n with
  | nil => simp [readDistance?] at h
  | cons c s ih =>
    simp only [readDistance?, Option.bind_eq_bind, Option.bind_eq_some_iff]
      at h
    obtain ⟨d, -, h⟩ := h
    split at h
    · simp only [Option.some.injEq, Prod.mk.injEq] at h
      simp [← h.2]
    · split at h
      · exact absurd h nofun
      · have := ih h
        simp only [List.length_cons]
        omega

/-- Puts the characters that the distances tell of into a name. The place of
a character and how far its code is from the last one are one number, `n`. -/
def readCodes? (code bias n : Nat) (name : List Char) :
    List Char → Option (List Char)
  | [] => some name
  | c :: s =>
    match _ : readDistance? bias 36 1 n (c :: s) with
    | none => none
    | some (m, rest) =>
      let count := name.length + 1
      let code := code + m / count
      match Number.charOfCode? code with
      | none => none
      | some d =>
        readCodes? code (adapt (m - n) count (n == 0)) (m % count + 1)
          (name.insertIdx (m % count) d) rest
termination_by s => s.length
decreasing_by exact readDistance?_length ‹_›

/-- What stands before and after the last hyphen, if something stands before
it. -/
def splitBasic (s : List Char) : List Char × List Char :=
  match s.reverse.span (· != '-') with
  | (back, _ :: front) =>
    if front.isEmpty then ([], s) else (front.reverse, back.reverse)
  | (_, []) => ([], s)

/-- The name that a text in ASCII is written for. -/
def decode? (s : List Char) : Option (List Char) :=
  let (basic, digits) := splitBasic s
  readCodes? 0x80 72 0 basic digits

end Stencil.Url.Punycode
