/-
Whole numbers in arguments.

What may be written for a number is a grammar: a sign at most, then a mark and
hexadecimal digits, a zero and octal digits, or decimal digits (`Unsigned`,
`Signed`). Reading splits off sign and base and only then looks at the digits; the
first character tells which was meant, so the two agree (`readUnsigned?_iff`,
`readSigned?_iff`). The range of 64 bits is looked at last, and the words that stand
for no number do not begin as numbers do (`exists_front`).
-/
import Stencil.Binding.Argument
import Stencil.Proofs.Number.Digits
import Mathlib.Tactic.IntervalCases

namespace Stencil.Binding.Argument

open Number (Numeral IsDigit natural? natural?_eq_some_iff splitSign)

variable {s : List Char} {n : Nat} {i : Int}

/-- The marks of hexadecimal digits. -/
def hexMarks : List (List Char) := [['0', 'x'], ['0', 'X'], ['#']]

theorem mem_hexMarks :
    s ∈ hexMarks ↔ s = ['0', 'x'] ∨ s = ['0', 'X'] ∨ s = ['#'] := by
  simp [hexMarks]

/-- How a natural number is written. -/
inductive Unsigned : List Char → Nat → Prop
  | hexadecimal {mark s : List Char} {n : Nat} (hmark : mark ∈ hexMarks)
      (h : Numeral 16 s n) : Unsigned (mark ++ s) n
  | octal {s : List Char} {n : Nat} (h : Numeral 8 s n) : Unsigned ('0' :: s) n
  | decimal {s : List Char} {n : Nat} (hfront : s.head? ≠ some '0')
      (h : Numeral 10 s n) : Unsigned s n
  | zero : Unsigned ['0'] 0

/-- How a whole number is written. -/
inductive Signed : List Char → Int → Prop
  | bare {s : List Char} {n : Nat} (h : Unsigned s n) : Signed s n
  | plus {s : List Char} {n : Nat} (h : Unsigned s n) : Signed ('+' :: s) n
  | minus {s : List Char} {n : Nat} (h : Unsigned s n) : Signed ('-' :: s) (-n)

-- ================================================================= unsigned

/-- Reads a number without a sign. -/
def readUnsigned? (s : List Char) : Option Nat :=
  natural? (splitBase s).1 (splitBase s).2

theorem splitBase_zero {c : Char} (r : List Char) (hx : c ≠ 'x')
    (hX : c ≠ 'X') : splitBase ('0' :: c :: r) = (8, c :: r) := by
  unfold splitBase
  split <;> simp_all

theorem splitBase_other (hzero : s.head? ≠ some '0')
    (hmark : s.head? ≠ some '#') : splitBase s = (10, s) := by
  unfold splitBase
  split <;> simp_all

theorem Unsigned.read (h : Unsigned s n) : readUnsigned? s = some n := by
  unfold readUnsigned?
  cases h with
  | hexadecimal hmark h =>
    have hread := (natural?_eq_some_iff (by decide)).2 h
    rcases mem_hexMarks.1 hmark with rfl | rfl | rfl
    · exact hread
    · exact hread
    · exact hread
  | octal h =>
    have hread := (natural?_eq_some_iff (by decide)).2 h
    obtain ⟨c, r, d, rfl, hc⟩ := h.head
    have hdigit : c.isDigit = true := hc.isDigit (by decide)
    rw [splitBase_zero r (by rintro rfl; cases hdigit)
      (by rintro rfl; cases hdigit)]
    exact hread
  | decimal hfront h =>
    have hread := (natural?_eq_some_iff (by decide)).2 h
    obtain ⟨c, r, d, rfl, hc⟩ := h.head
    have hdigit : c.isDigit = true := hc.isDigit (by decide)
    rw [splitBase_other hfront (by rintro ⟨⟩; cases hdigit)]
    exact hread
  | zero => decide

theorem readUnsigned?_iff : readUnsigned? s = some n ↔ Unsigned s n := by
  refine ⟨fun h => ?_, Unsigned.read⟩
  unfold readUnsigned? splitBase at h
  split at h
  · exact .hexadecimal (by decide : ['0', 'x'] ∈ hexMarks)
      ((natural?_eq_some_iff (by decide)).1 h)
  · exact .hexadecimal (by decide : ['0', 'X'] ∈ hexMarks)
      ((natural?_eq_some_iff (by decide)).1 h)
  · exact .hexadecimal (by decide : ['#'] ∈ hexMarks)
      ((natural?_eq_some_iff (by decide)).1 h)
  · exact .octal ((natural?_eq_some_iff (by decide)).1 h)
  · next hoctal =>
    by_cases hfront : s.head? = some '0'
    · obtain ⟨r, rfl⟩ := List.head?_eq_some_iff.1 hfront
      cases r with
      | nil =>
        cases h
        exact .zero
      | cons c r => exact absurd rfl (hoctal c r)
    · exact .decimal hfront ((natural?_eq_some_iff (by decide)).1 h)

/-- A number begins with a digit or with the mark of a base. -/
theorem Unsigned.exists_front (h : Unsigned s n) :
    ∃ c r, s = c :: r ∧ (c.isDigit = true ∨ c = '#') := by
  cases h with
  | hexadecimal hmark h =>
    rcases mem_hexMarks.1 hmark with rfl | rfl | rfl
    · exact ⟨_, _, rfl, .inl rfl⟩
    · exact ⟨_, _, rfl, .inl rfl⟩
    · exact ⟨_, _, rfl, .inr rfl⟩
  | octal h => exact ⟨_, _, rfl, .inl rfl⟩
  | decimal hfront h =>
    obtain ⟨c, r, d, rfl, hc⟩ := h.head
    exact ⟨c, r, rfl, .inl (hc.isDigit (by decide))⟩
  | zero => exact ⟨_, _, rfl, .inl rfl⟩

-- =================================================================== signed

/-- Reads a number with one sign at most, in any range. -/
def readSigned? (s : List Char) : Option Int :=
  (readUnsigned? (splitSign s).2).map fun n : Nat =>
    if (splitSign s).1 then -(n : Int) else n

theorem readWhole?_eq (s : List Char) :
    readWhole? s = (readSigned? s).bind Number.whole? := by
  unfold readSigned?
  rw [Option.bind_map]
  rfl

theorem readSigned?_iff : readSigned? s = some i ↔ Signed s i := by
  unfold readSigned?
  constructor
  · intro h
    obtain ⟨n, hn, rfl⟩ := Option.map_eq_some_iff.1 h
    rw [readUnsigned?_iff] at hn
    unfold splitSign at hn ⊢
    split at hn
    · exact .minus hn
    · exact .plus hn
    · exact .bare hn
  · intro h
    cases h with
    -- what begins with a digit has no sign to be split off
    | bare h =>
      obtain ⟨c, r, rfl, hc⟩ := h.exists_front
      have hbare : splitSign (c :: r) = (false, c :: r) := by
        unfold splitSign
        split <;> simp_all
      rw [hbare, h.read]
      rfl
    | plus h =>
      simp only [splitSign, h.read]
      rfl
    | minus h =>
      simp only [splitSign, h.read]
      rfl

-- ================================================================ arguments

theorem isAlpha_toLower_digit {c : Char} (h : c.isDigit = true) :
    c.toLower.isAlpha = false := by
  obtain ⟨h0, h9⟩ := Char.isDigit_iff_toNat.1 h
  have hcode := Char.ofNat_toNat c
  simp only [Char.reduceToNat] at h0 h9
  generalize c.toNat = code at h0 h9 hcode
  subst hcode
  interval_cases code <;> decide

/-- A number does not begin with a letter. -/
theorem Signed.exists_front (h : Signed s i) :
    ∃ c r, s = c :: r ∧ c.toLower.isAlpha = false := by
  cases h with
  | bare h =>
    obtain ⟨c, r, rfl, hdigit | rfl⟩ := h.exists_front
    · exact ⟨c, r, rfl, isAlpha_toLower_digit hdigit⟩
    · exact ⟨_, _, rfl, by decide⟩
  | plus h => exact ⟨_, _, rfl, by decide⟩
  | minus h => exact ⟨_, _, rfl, by decide⟩

/-- So it is no word. -/
theorem Signed.not_word (h : Signed s i) {c : Char} (hc : c.toLower.isAlpha = true)
    (r : List Char) : Text.sameIgnoringCase s (c :: r) = false := by
  obtain ⟨b, r', rfl, hb⟩ := h.exists_front
  refine Bool.eq_false_iff.2 fun hsame => ?_
  have heads := eq_of_beq hsame
  simp only [List.map_cons, List.cons.injEq] at heads
  rw [heads.1, hc] at hb
  cases hb

theorem read_eq_int_iff {text : String} {j : Int64} :
    read text = .int j ↔ readWhole? text.toList = some j := by
  unfold read
  dsimp only
  constructor
  · intro h
    split_ifs at h
    split at h
    · next k hk =>
      cases h
      exact hk
    · split at h <;> cases h
  · intro h
    have hsigned := h
    rw [readWhole?_eq] at hsigned
    obtain ⟨n, hn, -⟩ := Option.bind_eq_some_iff.1 hsigned
    rw [readSigned?_iff] at hn
    rw [if_neg (by simp [hn.not_word]), if_neg (by simp [hn.not_word]),
      if_neg (by simp [hn.not_word]), h]

/-- A number in decimal is written as numbers are. -/
theorem signed_text (j : Int64) : Signed (Number.text j).toList j.toInt := by
  have unsigned (n : Nat) : Unsigned (Nat.toDigits 10 n) n := by
    by_cases hn : n = 0
    · subst hn
      exact .zero
    · exact .decimal (Number.head_toDigits (by decide) hn)
        (Number.numeral_toDigits (by decide) n)
  unfold Number.text
  generalize j.toInt = i
  cases i with
  | ofNat n =>
    have htext : (toString (Int.ofNat n)).toList = Nat.toDigits 10 n :=
      Nat.toList_repr
    rw [htext]
    exact .bare (unsigned n)
  | negSucc n =>
    have htext : (toString (Int.negSucc n)).toList
        = '-' :: Nat.toDigits 10 (n + 1) := by
      rw [Int.toString_eq_repr]
      simp [Int.repr, Nat.toList_repr]
    rw [htext]
    exact .minus (unsigned (n + 1))

-- ============================================================= main results

/-- An argument is taken for a whole number just in case it is written as one,
and the number is in the range of 64 bits, all of it; so every such number is read
back from its decimal text. -/
theorem whole_arguments (text : String) :
    (∀ j : Int64, read text = .int j ↔ Signed text.toList j.toInt)
    ∧ (∀ i, Signed text.toList i →
      ((∃ j, read text = .int j) ↔ -2 ^ 63 ≤ i ∧ i < 2 ^ 63))
    ∧ ∀ j, read (Number.text j) = .int j := by
  have reads (text : String) (j : Int64) :
      read text = .int j ↔ Signed text.toList j.toInt := by
    rw [read_eq_int_iff, readWhole?_eq, Option.bind_eq_some_iff]
    constructor
    · rintro ⟨i, hi, hj⟩
      rw [Number.whole?_eq_some.1 hj]
      exact readSigned?_iff.1 hi
    · intro h
      exact ⟨_, readSigned?_iff.2 h, Number.whole?_eq_some.2 rfl⟩
  refine ⟨reads text, fun i hi => ?_, fun j => (reads _ j).2 (signed_text j)⟩
  constructor
  · rintro ⟨j, hj⟩
    -- a text is written for one number only
    have same : i = j.toInt := by
      have hread := readSigned?_iff.2 ((reads text j).1 hj)
      rw [readSigned?_iff.2 hi] at hread
      exact Option.some.inj hread
    rw [same]
    exact ⟨j.le_toInt, j.toInt_lt⟩
  · rintro ⟨hmin, hmax⟩
    have hrange : (Int64.ofInt i).toInt = i :=
      Int64.toInt_ofInt_of_le hmin hmax
    refine ⟨Int64.ofInt i, (reads text _).2 ?_⟩
    rw [hrange]
    exact hi

/-- The least number is taken, written in hexadecimal; the greatest one more is
not. -/
theorem whole_arguments_least :
    Signed "-0X8000000000000000".toList (-2 ^ 63)
    ∧ read "-0X8000000000000000" = .int Int64.minValue
    ∧ Signed "+01000000000000000000000".toList (2 ^ 63)
    ∧ ∀ j, read "+01000000000000000000000" ≠ .int j := by
  have least : Signed "-0X8000000000000000".toList (-2 ^ 63) :=
    readSigned?_iff.1 (by decide +kernel)
  have beyond : Signed "+01000000000000000000000".toList (2 ^ 63) :=
    readSigned?_iff.1 (by decide +kernel)
  have hleast := whole_arguments "-0X8000000000000000"
  have hbeyond := whole_arguments "+01000000000000000000000"
  refine ⟨least, (hleast.1 Int64.minValue).2 least, beyond, fun j hj => ?_⟩
  have hrange := (hbeyond.2.1 _ beyond).1 ⟨j, hj⟩
  omega

end Stencil.Binding.Argument
