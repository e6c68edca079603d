/-
Paths in the making. While a path is read, its names stand innermost first,
and the first of them is open: what is read next is written behind it. The
path of a file may begin with a drive, a letter and a colon. Whatever is
named like a drive is never left by going up.

An address does not see the line breaks and tabs in it, except in one place:
a break ends a drive that a file path begins with.
-/
import Stencil.Text.Search
import Stencil.Url.Basic
import Stencil.Url.Percent

namespace Stencil.Url

-- ================================================================= breaks

/-- A tab or line break. -/
def isBreak (c : Char) : Bool := c == '\t' || c == '\n' || c == '\r'

/-- A text without the breaks in it. -/
def joined (s : List Char) : List Char := s.filter fun c => !isBreak c

/-- The first character that is no break, and what stands behind it. -/
def first? (s : List Char) : Option (Char × List Char) :=
  match s.dropWhile isBreak with
  | [] => none
  | c :: s => some (c, s)

-- ================================================================= drives

/-- A drive: a letter, and a colon or a bar. -/
def isDrive (s : List Char) : Bool :=
  match s with
  | [c, d] => c.isAlpha && (d == ':' || d == '|')
  | _ => false

/-- A drive written with a colon. -/
def isPlainDrive (name : String) : Bool :=
  isDrive name.toList && name.toList.getLast? == some ':'

/-- A name that going up does not leave: a drive, or one with something
behind a backslash. -/
def isKept (name : String) : Bool :=
  match name.toList with
  | [c, d] => isDrive [c, d]
  | c :: d :: '\\' :: _ => isDrive [c, d]
  | _ => false

/-- The drive that a segment begins with and what stands behind it, if they
are held apart by a break. -/
def brokenDrive? (segment : List Char) : Option (String × List Char) :=
  match first? segment with
  | none => none
  | some (c, s) =>
    match s.dropWhile isBreak with
    | ':' :: b :: s =>
      if c.isAlpha && isBreak b && !(joined s).isEmpty
      then some (String.ofList [c, ':'], joined s)
      else none
    | _ => none

-- ================================================================== trail

/-- The names of a path so far, innermost first. The first is open; without
any, not even the root is there. -/
abbrev Trail := List String

/-- Opens a name, unless one is open that nothing is written in. -/
def Trail.settle : Trail → Trail
  | "" :: outer => "" :: outer
  | trail => "" :: trail

/-- Goes up. The root is not left, nor is a drive. -/
def Trail.leave : Trail → Trail
  | "" :: name :: outer =>
    if isKept name then "" :: name :: outer else "" :: outer
  | trail => trail

/-- Writes behind the open name. -/
def Trail.write (text : String) : Trail → Trail
  | [] => if text.isEmpty then [] else [text]
  | name :: outer => (name ++ text) :: outer

-- =================================================================== dots

/-- A segment with escaped dots written out. -/
def undotted (segment : List Char) : List Char :=
  Text.replaceAll "%2E".toList ['.']
    (Text.replaceAll "%2e".toList ['.'] segment)

/-- The segment names the directory it is in. -/
def isHere (segment : List Char) : Bool := undotted segment == ['.']

/-- The segment names the directory around the one it is in. -/
def isUp (segment : List Char) : Bool := undotted segment == ['.', '.']

-- =================================================================== walk

/-- A path being read, and whether a drive has come first in it. -/
structure Walk where
  trail : Trail
  drive : Bool
deriving DecidableEq, Repr

/-- What separates the segments of a path. -/
def SchemeKind.separates (k : SchemeKind) (c : Char) : Bool :=
  c == '/' || (k.isSpecial && c == '\\')

/-- In the path of a file, an open drive is closed by anything behind it. -/
def closeDrive (k : SchemeKind) (segment : List Char) : Trail → Trail
  | [name] =>
    if k = .file && isPlainDrive name && !(joined segment).isEmpty
    then ["", name]
    else [name]
  | trail => trail

/-- Writes a segment that does not stand for a directory. A drive that comes
first in the path of a file has a colon. -/
def writeSegment (k : SchemeKind) (w : Walk) (segment : List Char) : Walk :=
  match k, w.trail, segment with
  | .file, [""], [c, d] =>
    if isDrive [c, d] then ⟨[String.ofList [c, ':']], true⟩
    else { w with trail := [escape inPath [c, d]] }
  | _, trail, _ => { w with trail := trail.write (escape inPath segment) }

/-- Reads a segment; `more` says that another follows it. -/
def readSegment (k : SchemeKind) (w : Walk) (segment : List Char)
    (more : Bool) : Walk :=
  let s := joined segment
  let trail := closeDrive k segment w.trail
  if isUp s then
    { w with trail := if more then trail.leave.settle else trail.leave }
  else if isHere s then { w with trail := trail.settle }
  else
    let w := writeSegment k { w with trail := trail } s
    if more then { w with trail := "" :: w.trail } else w

/-- Reads a segment at the root of the path of a file, where a break ends a
drive. -/
def readFirst (k : SchemeKind) (w : Walk) (segment : List Char)
    (more : Bool) : Walk :=
  match k, w.trail, brokenDrive? segment with
  | .file, [""], some (drive, rest) =>
    let trail := [escape inPath rest, drive]
    { w with trail := if more then "" :: trail else trail }
  | _, _, _ => readSegment k w segment more

def readSegments (k : SchemeKind) (w : Walk) : List (List Char) → Walk
  | [] => w
  | [segment] => readFirst k w segment false
  | segment :: rest => readSegments k (readFirst k w segment true) rest

/-- The path of a file has no empty names before its first. -/
def dropEmpty (names : List String) : List String :=
  match names.dropWhile (·.isEmpty) with
  | [] => [""]
  | names => names

/-- The names that a path leads to from a trail, and whether a drive comes
first in them. -/
def resolvePath (k : SchemeKind) (start : Trail) (s : List Char) :
    List String × Bool :=
  let w := readSegments k ⟨start, false⟩ (Text.pieces k.separates s)
  let names := w.trail.reverse
  (if k = .file then dropEmpty names else names, w.drive)

end Stencil.Url
