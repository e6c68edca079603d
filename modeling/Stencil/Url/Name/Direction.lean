/-
The direction of labels. Some scripts are written from right to left. In a
name that holds one of their characters every label keeps to one direction,
so that it cannot look like another one.
-/
import Stencil.Text.Mark

namespace Stencil.Url.Name

open Text (CodeRanges)

-- ============================================================ the tables

/-- Characters of scripts that are written from right to left. -/
def rightRanges : CodeRanges :=
  [(0x5BE, 0x5F4), (0x608, 0x608), (0x60B, 0x60B), (0x60D, 0x60D),
   (0x61B, 0x64A), (0x66D, 0x6D5), (0x6E5, 0x6E6), (0x6EE, 0x6EF),
   (0x6FA, 0x7F5), (0x7FA, 0x8C9), (0xFBB2, 0xFBC2), (0xFE73, 0xFE73),
   (0x10800, 0x1091B), (0x10920, 0x10B35), (0x10B40, 0x10D23),
   (0x10D4A, 0x10D4F), (0x10D6F, 0x10D8F), (0x10E80, 0x10EC7),
   (0x10F00, 0x10FF6), (0x1E800, 0x1ED3D)]

/-- Digits that are written from left to right in such scripts. -/
def arabicRanges : CodeRanges :=
  [(0x660, 0x669), (0x66B, 0x66C), (0x10D30, 0x10D49), (0x10E60, 0x10E7E)]

/-- All other digits. -/
def digitRanges : CodeRanges :=
  [(0x30, 0x39), (0x6F0, 0x6F9), (0x102E1, 0x102FB)]

/-- Signs, which go with what is around them. -/
def signRanges : CodeRanges :=
  [(0x21, 0x2F), (0x3A, 0x60), (0x7B, 0xD7), (0xF7, 0xF7), (0x2B9, 0x2BA),
   (0x2C2, 0x2CF), (0x2D2, 0x2ED), (0x2EF, 0x2FF), (0x375, 0x375),
   (0x3F6, 0x3F6), (0x58A, 0x58F), (0x606, 0x607), (0x609, 0x60A),
   (0x60C, 0x60C), (0x60E, 0x60F), (0x66A, 0x66A), (0x6DE, 0x6DE),
   (0x6E9, 0x6E9), (0x7F6, 0x7F9), (0x9F2, 0x9F3), (0x9FB, 0x9FB),
   (0xAF1, 0xAF1), (0xBF3, 0xBFA), (0xC78, 0xC7E), (0xE3F, 0xE3F),
   (0xF3A, 0xF3D), (0x1390, 0x1399), (0x1400, 0x1400), (0x169B, 0x169C),
   (0x17DB, 0x17DB), (0x17F0, 0x180A), (0x1940, 0x1945), (0x19DE, 0x19FF),
   (0x200C, 0x214D), (0x218A, 0x2335), (0x237B, 0x2394), (0x2396, 0x26AB),
   (0x26AD, 0x27FF), (0x2900, 0x2BFF), (0x2CE5, 0x2CEA), (0x2CF9, 0x2CFF),
   (0x2E00, 0x3004), (0x3008, 0x3020), (0x3030, 0x3030), (0x3037, 0x3037),
   (0x303D, 0x303F), (0x30A0, 0x30A0), (0x30FB, 0x30FB), (0x31C0, 0x31E5),
   (0x4DC0, 0x4DFF), (0xA490, 0xA4C6), (0xA60D, 0xA60F), (0xA673, 0xA67F),
   (0xA700, 0xA721), (0xA788, 0xA788), (0xA828, 0xA82B), (0xA838, 0xA839),
   (0xA874, 0xA877), (0xAB6A, 0xAB6B), (0xFBC3, 0xFE46), (0x10101, 0x10101),
   (0x10140, 0x1018C), (0x10190, 0x101A0), (0x1091F, 0x1091F),
   (0x10B39, 0x10B3F), (0x10D6E, 0x10D6E), (0x10ED0, 0x10ED8),
   (0x11052, 0x11065), (0x11660, 0x1166C), (0x11FD5, 0x11FF1),
   (0x16FE2, 0x16FE2), (0x1CC00, 0x1CEF0), (0x1D1E9, 0x1D245),
   (0x1D300, 0x1D356), (0x1E2FF, 0x1E2FF), (0x1EEF0, 0x1F12F),
   (0x1F16D, 0x1F16F), (0x1F1AD, 0x1F1AD), (0x1F260, 0x1FBFA)]

/-- Marks that take no room and yet go from left to right. -/
def leftMarkRanges : CodeRanges :=
  [(0xCBF, 0xCBF), (0xCC6, 0xCC6), (0x11A07, 0x11A08), (0x11C3F, 0x11C3F)]

-- ============================================================= directions

/-- How a character goes. -/
inductive Direction where
  | left
  | right
  | digit
  | arabic
  | sign
  | mark
deriving DecidableEq, Repr

namespace Direction

/-- The direction of a character; what is not listed goes from the left. -/
def of (c : Char) : Direction :=
  if Text.isFlatMark c && !leftMarkRanges.contains c then .mark
  else if rightRanges.contains c then .right
  else if arabicRanges.contains c then .arabic
  else if digitRanges.contains c then .digit
  else if signRanges.contains c then .sign
  else .left

/-- A name with the character has labels that go from the right. -/
def turns (d : Direction) : Bool := d = .right || d = .arabic

/-- What a label ends in, its marks aside. -/
def ending? (ds : List Direction) : Option Direction :=
  (ds.reverse.dropWhile (· = .mark)).head?

/-- A label that goes from the left holds nothing that goes from the right,
and ends in a letter or a digit. -/
def fitsLeft (ds : List Direction) : Bool :=
  ds.all (fun d => !d.turns)
    && (ending? ds).any fun d => d = .left || d = .digit

/-- A label that goes from the right holds nothing that goes from the left
and digits of one kind, and ends in a letter or a digit. -/
def fitsRight (ds : List Direction) : Bool :=
  ds.all (· ≠ .left)
    && (ending? ds).any (fun d => d.turns || d = .digit)
    && !(ds.contains .digit && ds.contains .arabic)

/-- A label keeps to the direction of its first character. -/
def fits : List Direction → Bool
  | [] => true
  | .left :: ds => fitsLeft (.left :: ds)
  | .right :: ds => fitsRight (.right :: ds)
  | _ => false

end Direction

/-- The labels of a name keep to their directions, if any goes from the
right. -/
def directionsFit (labels : List (List Char)) : Bool :=
  let ds := labels.map (·.map Direction.of)
  !ds.any (·.any Direction.turns) || ds.all Direction.fits

end Stencil.Url.Name
