/-
Functions on texts. A function takes the texts that its arguments stand for;
positions and lengths count characters. Searching functions all go by the
first occurrence.
-/
import Stencil.Expr.Value
import Stencil.Markup.Entity
import Stencil.Text.Case

namespace Stencil.Expr

/-- The functions of one namespace, by name. -/
structure Library where
  call : String → List Value → Except Error Value

namespace Library

/-- The characters of the text that a value stands for. -/
def chars (v : Value) : List Char := v.display.toList

def ofChars (s : List Char) : Value := .string (String.ofList s)

/-- The number of items of a collection, else of characters. -/
def length : Value → Nat
  | .null => 0
  | .array items => items.length
  | .map entries => entries.length
  | v => (chars v).length

/-- A count as a whole number; every length of a text in memory is one. -/
def ofCount (n : Nat) : Value := .int (Int64.ofNat n)

/-- Characters `first` up to, not including, `last`. A negative `first` is
zero; a negative `last`, or one beyond the end, is the end. -/
def slice (s : List Char) (first last : Int) : List Char :=
  let start := first.toNat
  let stop := if last < 0 || last > s.length then s.length else last.toNat
  (s.take stop).drop start

/-- What stands before the first occurrence, if there is one. -/
def before (s t : List Char) : List Char :=
  match Text.breakOn? t s with
  | some (a, _) => a
  | none => []

/-- What stands behind the first occurrence, if there is one. -/
def after (s t : List Char) : List Char :=
  match Text.breakOn? t s with
  | some (_, b) => b
  | none => []

/-- The position of the first occurrence, or -1. -/
def position (s t : List Char) : Value :=
  match Text.indexOf? t s with
  | some i => ofCount i
  | none => .int (-1)

/-- The pieces between delimiter characters, empty ones dropped; the empty
text is one piece. -/
def split (s delimiters : List Char) : List Value :=
  if s.isEmpty then [.string ""]
  else (Text.fields delimiters.contains s).map ofChars

/-- The texts of an array's items with a separator between them. -/
def join (items : Value) (separator : String) : Except Error Value :=
  match items with
  | .null => .ok (.string "")
  | .array items =>
    .ok (.string (String.intercalate separator (items.map Value.display)))
  | v => .error (.function "join" (.cannotJoin v.kind))

-- ============================================================== dispatch

/-- The namespace that the functions go by. -/
def stringsUri : String := "http://java.sun.com/jsp/jstl/functions"

/-- The names of the functions and how many arguments each takes. -/
def arities : List (String × Nat) :=
  [("length", 1), ("toUpperCase", 1), ("toLowerCase", 1), ("trim", 1),
   ("substring", 3), ("substringAfter", 2), ("substringBefore", 2),
   ("contains", 2), ("containsIgnoreCase", 2), ("startsWith", 2),
   ("endsWith", 2), ("indexOf", 2), ("replace", 3), ("split", 2),
   ("join", 2), ("escapeXml", 1)]

/-- A function applied to as many arguments as it takes. -/
def apply (name : String) (args : List Value) : Except Error Value :=
  match name, args with
  | "length", [v] => .ok (ofCount (length v))
  | "toUpperCase", [v] => .ok (.string (Text.upper v.display))
  | "toLowerCase", [v] => .ok (.string (Text.lower v.display))
  | "trim", [v] => .ok (ofChars (Text.trim (chars v)))
  | "substring", [v, first, last] => do
    let i ← first.asInt
    let j ← last.asInt
    .ok (ofChars (slice (chars v) i.toInt j.toInt))
  | "substringAfter", [v, w] => .ok (ofChars (after (chars v) (chars w)))
  | "substringBefore", [v, w] => .ok (ofChars (before (chars v) (chars w)))
  | "contains", [v, w] => .ok (.bool (Text.occurs (chars w) (chars v)))
  | "containsIgnoreCase", [v, w] =>
    .ok (.bool (Text.occurs (Text.lower w.display).toList
      (Text.lower v.display).toList))
  | "startsWith", [v, w] => .ok (.bool ((chars w).isPrefixOf (chars v)))
  | "endsWith", [v, w] => .ok (.bool ((chars w).isSuffixOf (chars v)))
  | "indexOf", [v, w] => .ok (position (chars v) (chars w))
  | "replace", [v, w, x] =>
    .ok (ofChars (Text.replaceAll (chars w) (chars x) (chars v)))
  | "split", [v, w] => .ok (.array (split (chars v) (chars w)))
  | "join", [v, w] => join v w.display
  | "escapeXml", [v] => .ok (.string (Markup.escape v.display))
  | name, _ => .error (.unknownFunction name)

/-- The library of functions on texts. -/
def strings : Library where
  call name args :=
    match arities.lookup name with
    | none => .error (.unknownFunction name)
    | some n =>
      if args.length = n then apply name args
      else .error (.function name (.count n args.length))

end Library

end Stencil.Expr
