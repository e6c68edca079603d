/-
White space: the property `White_Space` of any script, the four characters
that markup and expressions treat as space, and trimming.
-/
import Stencil.Text.CodeRanges

namespace Stencil.Text

/-- The property `White_Space`. -/
def blankRanges : CodeRanges :=
  [(0x9, 0xD), (0x20, 0x20), (0x85, 0x85), (0xA0, 0xA0), (0x1680, 0x1680),
   (0x2000, 0x200A), (0x2028, 0x2029), (0x202F, 0x202F), (0x205F, 0x205F),
   (0x3000, 0x3000)]

/-- White space of any script. -/
def isBlank (c : Char) : Bool := blankRanges.contains c

/-- The space of markup: space, tab, carriage return and line feed. -/
def isSpace (c : Char) : Bool :=
  c = ' ' || c = '\t' || c = '\r' || c = '\n'

/-- Markup space is white space. -/
theorem isBlank_of_isSpace {c : Char} (h : isSpace c = true) :
    isBlank c = true := by
  simp only [isSpace, Bool.or_eq_true, decide_eq_true_eq] at h
  rcases h with ((rfl | rfl) | rfl) | rfl <;> decide

/-- Every character is white space; true of the empty text. -/
def allBlank (s : String) : Bool := s.toList.all isBlank

-- ============================================================== trimming

/-- The text without its leading white space. -/
def dropBlank (s : List Char) : List Char := s.dropWhile isBlank

/-- The text without its trailing white space. -/
def dropBlankEnd (s : List Char) : List Char :=
  (s.reverse.dropWhile isBlank).reverse

/-- The text without white space at either end. -/
def trim (s : List Char) : List Char := dropBlankEnd (dropBlank s)

/-- `trim` on strings. -/
def trimmed (s : String) : String := String.ofList (trim s.toList)

theorem dropBlank_append (s : List Char) :
    s.takeWhile isBlank ++ dropBlank s = s :=
  List.takeWhile_append_dropWhile

theorem dropBlank_eq_nil {s : List Char} :
    dropBlank s = [] ↔ s.all isBlank = true := by
  induction s with
  | nil => simp [dropBlank]
  | cons c s ih =>
    simp only [dropBlank, List.dropWhile_cons, List.all_cons] at ih ⊢
    cases hc : isBlank c <;> simp [ih]

end Stencil.Text
