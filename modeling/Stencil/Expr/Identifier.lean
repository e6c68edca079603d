/-
Identifiers: a letter, `_` or `$`, then letters, numerals, `_` and `$`. The
words of the expression language are not names of variables.
-/
import Stencil.Text.Letter

namespace Stencil.Expr

def isIdentifierStart (c : Char) : Bool :=
  Text.isLetter c || c == '_' || c == '$'

def isIdentifierPart (c : Char) : Bool :=
  Text.isLetter c || Text.isNumeral c || c == '_' || c == '$'

/-- The words of the expression language. -/
def reservedWords : List String :=
  ["and", "or", "not", "eq", "ne", "lt", "gt", "le", "ge", "true", "false",
   "null", "empty", "div", "mod", "instanceof"]

def isReserved (name : List Char) : Bool :=
  reservedWords.any fun w => w.toList == name

/-- Every character belongs where it stands in an identifier. -/
def isIdentifier : List Char → Bool
  | [] => false
  | c :: s => isIdentifierStart c && s.all isIdentifierPart

/-- A name that a variable, a macro or a loop may have. -/
def isValidName (name : String) : Bool :=
  isIdentifier name.toList && !isReserved name.toList

theorem isIdentifierPart_of_start {c : Char}
    (h : isIdentifierStart c = true) : isIdentifierPart c = true := by
  simp only [isIdentifierStart, isIdentifierPart, Bool.or_eq_true] at h ⊢
  rcases h with (h | h) | h
  · exact Or.inl (Or.inl (Or.inl h))
  · exact Or.inl (Or.inr h)
  · exact Or.inr h

end Stencil.Expr
