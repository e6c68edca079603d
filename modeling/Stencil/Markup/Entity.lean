/-
Entities: the five predefined names, references by number, and the two
escapings that write text so that reading gives it back.

A reference in character data names any code point there is. A reference in
an attribute value is read more strictly: no sign, no zero, a lower-case `x`.
-/
import Stencil.Markup.Error
import Stencil.Number.Radix

namespace Stencil.Markup

open Number (digit? natural? charOfCode? dropPlus)

/-- The character that a predefined entity stands for. -/
def predefined? : List Char → Option Char
  | ['a', 'm', 'p'] => some '&'
  | ['l', 't'] => some '<'
  | ['g', 't'] => some '>'
  | ['q', 'u', 'o', 't'] => some '"'
  | ['a', 'p', 'o', 's'] => some '\''
  | _ => none

-- =============================================================== numbers

/-- Character numbers are read in 32 bits. -/
def numberLimit : Nat := Nat.pow 2 32

/-- Reads digits from left to right, stopping at the first that is no digit
or that takes the number out of range. -/
def digitsFrom (base acc : Nat) : List Char → Except ReferenceFault Nat
  | [] => .ok acc
  | c :: s =>
    match digit? base c with
    | none => .error .digit
    | some d =>
      let next := acc * base + d
      if next < numberLimit then digitsFrom base next s else .error .tooLarge

-- ======================================== references in character data

/-- Digits in 32 bits with at most one leading `+`. -/
def looseNumber? (base : Nat) (s : List Char) : Option Nat :=
  (natural? base (dropPlus s)).filter (· < numberLimit)

/-- What a reference in character data stands for. -/
def referenced? (name : List Char) : Option Char :=
  match name with
  | '#' :: 'x' :: r => (looseNumber? 16 r).bind charOfCode?
  | '#' :: 'X' :: r => (looseNumber? 16 r).bind charOfCode?
  | '#' :: r => (looseNumber? 10 r).bind charOfCode?
  | name => predefined? name

-- ======================================= references in attribute values

/-- The number between `&#` and `;` in an attribute value. -/
def strictNumber (base : Nat) (s : List Char) : Except ReferenceFault Nat :=
  match s with
  | [] => .error .empty
  | '+' :: _ => .error .sign
  | '-' :: _ => .error .sign
  | s => digitsFrom base 0 s

/-- The character between `&#` and `;` in an attribute value. -/
def strictReference (s : List Char) : Except ReferenceFault Char := do
  let code ←
    match s with
    | 'x' :: r => strictNumber 16 r
    | r => strictNumber 10 r
  if code = 0 then .error .zero
  else
    match charOfCode? code with
    | some c => .ok c
    | none => .error (.notACharacter code)

/-- The characters up to the next `&` or `;`. -/
def entityName (s : List Char) : List Char :=
  s.takeWhile fun c => c != '&' && c != ';'

/-- Resolves the references of an attribute value from byte offset `pos` on;
`skip` characters belong to the reference just read, and `size` is the length
of the whole value. -/
def unescapeFrom (size : Nat) : Nat → Nat → List Char →
    Except Fault (List Char)
  | _, _, [] => .ok []
  | pos, skip + 1, c :: s => unescapeFrom size (pos + c.utf8Size) skip s
  | pos, 0, c :: s =>
    if c = '&' then
      let name := entityName s
      if (s.drop name.length).head? = some ';' then
        let resolved :=
          match name with
          | '#' :: number => (strictReference number).mapError Fault.reference
          | name =>
            match predefined? name with
            | some c => .ok c
            | none =>
              .error (.unknownEntity (pos + 1) (pos + 1 + Text.width name)
                (String.ofList name))
        match resolved with
        | .error fault => .error fault
        | .ok c =>
          (unescapeFrom size (pos + 1) (name.length + 1) s).map (c :: ·)
      else .error (.entityNotClosed pos size)
    else (unescapeFrom size (pos + c.utf8Size) 0 s).map (c :: ·)

/-- The value that a raw attribute value spells. -/
def unescape (raw : List Char) : Except Fault (List Char) :=
  unescapeFrom (Text.width raw) 0 0 raw

-- ============================================================== escaping

/-- How an attribute value spells a character. -/
def escapeChar : Char → List Char
  | '<' => ['&', 'l', 't', ';']
  | '>' => ['&', 'g', 't', ';']
  | '&' => ['&', 'a', 'm', 'p', ';']
  | '\'' => ['&', 'a', 'p', 'o', 's', ';']
  | '"' => ['&', 'q', 'u', 'o', 't', ';']
  | c => [c]

/-- How character data spells a character. -/
def escapeTextChar : Char → List Char
  | '<' => ['&', 'l', 't', ';']
  | '>' => ['&', 'g', 't', ';']
  | '&' => ['&', 'a', 'm', 'p', ';']
  | c => [c]

/-- The text as an attribute value spells it. -/
def escape (s : String) : String :=
  String.ofList (s.toList.flatMap escapeChar)

/-- The text as character data spells it. -/
def escapeText (s : String) : String :=
  String.ofList (s.toList.flatMap escapeTextChar)

end Stencil.Markup
