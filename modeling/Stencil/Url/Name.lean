/-
Names of hosts. A name is a row of labels between dots. It is brought into
its one form, and the labels that are not in ASCII then are written in ASCII
behind a mark. A label that comes with the mark has to be one that would be
written so.
-/
import Stencil.Url.Name.Direction
import Stencil.Url.Name.Folding
import Stencil.Url.Name.Joining
import Stencil.Url.Punycode

namespace Stencil.Url.Name

/-- A character of ASCII that no name holds. -/
def isForbidden (c : Char) : Bool :=
  c.toNat ≤ 0x20 || c.toNat == 0x7F || "%#/:<>?@[\\]^|".toList.contains c

def isAscii (s : List Char) : Bool := s.all fun c => decide (c.toNat < 0x80)

-- ================================================================= labels

/-- What a label in ASCII begins with if it is written for another one. -/
def mark : List Char := ['x', 'n', '-', '-']

/-- No label to read is longer, the mark aside. -/
def longestWritten : Nat := 2000

/-- No label to write is longer. -/
def longestLabel : Nat := 1000

/-- The label that one in ASCII is written for, behind the mark. It is not in
ASCII itself, it is in its one form, and it is one label without a mark. -/
def readLabel? (s : List Char) : Option (List Char) := do
  if longestWritten < s.length || !isAscii s then none
  else
    let label ← Punycode.decode? s
    if isAscii label || !isFolded label || label.contains '.'
        || label.any isForbidden || mark.isPrefixOf label then none
    else some label

/-- A label beyond ASCII does not begin with a mark that belongs to what is
before it, and has no joiners that make no difference. -/
def isSound (label : List Char) : Bool :=
  isAscii label
    || (!label.head?.any Text.isMark && joinersFit [] label
      && label.length ≤ longestLabel)

/-- The label that a label stands for, if it is sound. -/
def label? (s : List Char) : Option (List Char) :=
  let label? := if mark.isPrefixOf s then readLabel? (s.drop mark.length)
    else some s
  label?.filter isSound

/-- A label in ASCII. -/
def written (label : List Char) : List Char :=
  if isAscii label then label else mark ++ Punycode.encode label

-- ================================================================== names

/-- The labels of a name in its one form. -/
def labels? (s : List Char) : Option (List (List Char)) := do
  let folded ← fold? s
  if folded.any isForbidden then none
  else
    let labels ← (Text.pieces (· == '.') folded).mapM label?
    if directionsFit labels then some labels else none

/-- A name in its one form and in ASCII. -/
def ascii? (s : List Char) : Option (List Char) :=
  (labels? s).map fun labels => List.intercalate ['.'] (labels.map written)

end Stencil.Url.Name
