/-
Positional notation.

A numeral is a digit, or a numeral and one more digit behind it, which moves what
stands before it up one place (`Numeral`). Readers go the other way, from the first
digit on with what they have so far; they are compared with numerals where a text
is cut before its last character (`digitsFrom?_append`).
-/
import Stencil.Number.Radix
import Mathlib.Data.List.Induction

namespace Stencil.Number

variable {base : Nat} {s : List Char} {c : Char} {n d : Nat}

/-- The character is a digit of the base, a letter in either case. -/
def IsDigit (base : Nat) (c : Char) (d : Nat) : Prop :=
  d < base ∧ (c = Nat.digitChar d ∨ c = (Nat.digitChar d).toUpper)

instance : Decidable (IsDigit base c d) :=
  inferInstanceAs (Decidable (_ ∧ _))

/-- The digits of a number in a base, with leading zeros or without. -/
inductive Numeral (base : Nat) : List Char → Nat → Prop
  | one {c : Char} {d : Nat} (h : IsDigit base c d) : Numeral base [c] d
  | more {s : List Char} {n : Nat} {c : Char} {d : Nat}
      (hs : Numeral base s n) (h : IsDigit base c d) :
      Numeral base (s ++ [c]) (n * base + d)

-- ================================================================== digits

theorem toNat_digitChar :
    ∀ d < 16, (Nat.digitChar d).toNat = if d < 10 then 48 + d else 87 + d := by
  decide

theorem toNat_toUpper_digitChar :
    ∀ d < 16, (Nat.digitChar d).toUpper.toNat
      = if d < 10 then 48 + d else 55 + d := by
  decide

theorem le_iff_toNat {a b : Char} : a ≤ b ↔ a.toNat ≤ b.toNat := Iff.rfl

theorem digit?_eq_some_iff_toNat :
    digit? base c = some d ↔ d < base
      ∧ (48 ≤ c.toNat ∧ c.toNat ≤ 57 ∧ c.toNat = 48 + d
        ∨ 97 ≤ c.toNat ∧ c.toNat ≤ 102 ∧ c.toNat = 87 + d
        ∨ 65 ≤ c.toNat ∧ c.toNat ≤ 70 ∧ c.toNat = 55 + d) := by
  unfold digit?
  dsimp only
  rw [Option.filter_eq_some_iff, decide_eq_true_eq, and_comm]
  refine and_congr_right fun _ => ?_
  simp only [Char.isDigit_iff_toNat, le_iff_toNat, Char.reduceToNat]
  split_ifs <;> simp <;> omega

theorem digit?_eq_some_iff (hbase : base ≤ 16) :
    digit? base c = some d ↔ IsDigit base c d := by
  rw [digit?_eq_some_iff_toNat]
  refine and_congr_right fun hd => ?_
  have hlimit : d < 16 := by omega
  rw [← Char.toNat_inj, ← Char.toNat_inj, toNat_digitChar d hlimit,
    toNat_toUpper_digitChar d hlimit]
  split <;> omega

theorem IsDigit.isDigit (h : IsDigit base c d) (hbase : base ≤ 10) :
    c.isDigit = true := by
  obtain ⟨hd, hc⟩ := h
  have hlimit : d < 10 := by omega
  have hcode : c.toNat = 48 + d := by
    rcases hc with rfl | rfl
    · simp [toNat_digitChar d (by omega), hlimit]
    · simp [toNat_toUpper_digitChar d (by omega), hlimit]
  rw [Char.isDigit_iff_toNat, hcode]
  simp only [Char.reduceToNat]
  omega

-- ================================================================ numerals

theorem digitsFrom?_append (acc : Nat) (s t : List Char) :
    digitsFrom? base acc (s ++ t)
      = (digitsFrom? base acc s).bind fun n => digitsFrom? base n t := by
  induction s generalizing acc with
  | nil => rfl
  | cons c s ih =>
    rw [List.cons_append, digitsFrom?, digitsFrom?, Option.bind_assoc]
    congr 1
    funext d
    exact ih _

theorem numeral_of_digitsFrom? (hbase : base ≤ 16) (hs : s ≠ [])
    (h : digitsFrom? base 0 s = some n) : Numeral base s n := by
  induction s using List.reverseRecOn generalizing n with
  | nil => exact absurd rfl hs
  | append_singleton s c ih =>
    rw [digitsFrom?_append] at h
    obtain ⟨m, hm, h⟩ := Option.bind_eq_some_iff.1 h
    obtain ⟨d, hd, h⟩ := Option.bind_eq_some_iff.1 h
    cases h
    rw [digit?_eq_some_iff hbase] at hd
    by_cases hnil : s = []
    · subst hnil
      cases hm
      rw [Nat.zero_mul, Nat.zero_add]
      exact .one hd
    · exact .more (ih hnil hm) hd

theorem Numeral.digitsFrom? (hbase : base ≤ 16) (h : Numeral base s n) :
    digitsFrom? base 0 s = some n := by
  induction h with
  | one h =>
    rw [Number.digitsFrom?, (digit?_eq_some_iff hbase).2 h]
    simp [Number.digitsFrom?]
  | more hs h ih =>
    rw [digitsFrom?_append, ih]
    simp [Number.digitsFrom?, (digit?_eq_some_iff hbase).2 h]

theorem Numeral.ne_nil (h : Numeral base s n) : s ≠ [] := by
  cases h with
  | one => simp
  | more => simp

/-- A text is read as a number just in case it is a numeral of the base. -/
theorem natural?_eq_some_iff (hbase : base ≤ 16) :
    natural? base s = some n ↔ Numeral base s n := by
  unfold natural?
  constructor
  · intro h
    split at h
    · cases h
    · next hs =>
      exact numeral_of_digitsFrom? hbase (by simpa using hs) h
  · intro h
    rw [if_neg (by simpa using h.ne_nil)]
    exact h.digitsFrom? hbase

/-- The first character of a numeral is a digit. -/
theorem Numeral.head (h : Numeral base s n) :
    ∃ c r d, s = c :: r ∧ IsDigit base c d := by
  induction h with
  | @one c d h => exact ⟨c, [], d, rfl, h⟩
  | @more s n c d hs h ih =>
    obtain ⟨b, r, e, rfl, he⟩ := ih
    exact ⟨b, r ++ [c], e, rfl, he⟩

/-- The digits in which a number is written are a numeral. -/
theorem numeral_toDigits (hbase : 1 < base) (n : Nat) :
    Numeral base (Nat.toDigits base n) n := by
  induction n using Nat.strongRecOn with
  | ind n ih =>
    by_cases hn : n < base
    · rw [Nat.toDigits_of_lt_base hn]
      exact .one ⟨hn, .inl rfl⟩
    · have hle : base ≤ n := by omega
      rw [Nat.toDigits_of_base_le hbase hle]
      have last : IsDigit base (Nat.digitChar (n % base)) (n % base) :=
        ⟨Nat.mod_lt n (by omega), .inl rfl⟩
      have hless : n / base < n := Nat.div_lt_self (by omega) hbase
      have whole := (ih (n / base) hless).more last
      rwa [Nat.div_add_mod'] at whole

/-- Only zero is written with a zero in front. -/
theorem head_toDigits (hbase : 1 < base) (hn : n ≠ 0) :
    (Nat.toDigits base n).head? ≠ some '0' := by
  induction n using Nat.strongRecOn with
  | ind n ih =>
    by_cases hless : n < base
    · rw [Nat.toDigits_of_lt_base hless]
      simpa using hn
    · have hle : base ≤ n := by omega
      have hpos : 0 < n / base := Nat.div_pos hle (by omega)
      have hfront := ih (n / base) (Nat.div_lt_self (by omega) hbase)
        (by omega)
      rw [Nat.toDigits_of_base_le hbase hle, List.head?_append]
      cases hs : (Nat.toDigits base (n / base)).head? with
      | none => exact absurd (List.head?_eq_none_iff.1 hs) Nat.toDigits_ne_nil
      | some c =>
        rw [hs] at hfront
        exact hfront

end Stencil.Number
