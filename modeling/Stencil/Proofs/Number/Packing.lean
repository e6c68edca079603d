/-
Floats and their bits.

A float is its bits, and what is computed is computed on sign, mantissa and
exponent. Taking a float apart and putting it together again gives the same
float (`pack_unpack`). The other way round nothing is lost either if 64 bits
hold the number, and it becomes infinite if the exponent is too large
(`unpack_pack`).
-/
import Stencil.Proofs.Number.Rounding

namespace Stencil.Number

open Float.Model
open Float.Model.UnpackedFloat

-- ====================================================================== bits

theorem extractLsb_append (s : BitVec 1) (e : BitVec 11) (m : BitVec 52) :
    (s ++ e ++ m).extractLsb 63 63 = s := by
  apply BitVec.eq_of_getLsbD_eq
  intro i hi
  rw [BitVec.getLsbD_extractLsb, BitVec.getLsbD_append, BitVec.getLsbD_append]
  obtain rfl : i = 0 := by omega
  rfl

theorem append_extractLsb (b : BitVec 64) :
    (b.extractLsb 63 63 ++ b.extractLsb 62 52 ++ b.extractLsb 51 0 : BitVec 64)
      = b := by
  apply BitVec.eq_of_getLsbD_eq
  intro i hi
  rw [BitVec.getLsbD_append, BitVec.getLsbD_append]
  simp only [BitVec.getLsbD_extractLsb]
  by_cases h : i < 52
  · simp [h]
  · by_cases h' : i < 63
    · simp [h, show i - 52 < 11 by omega, show 52 + (i - 52) = i by omega]
    · obtain rfl : i = 63 := by omega
      simp

theorem unpackSign_packComponents (s : Sign) (e : BitVec 11) (m : BitVec 52) :
    unpackSign (packComponents .binary64 s e m) = s.toBitVec :=
  extractLsb_append _ e m

theorem ofBitVec_toBitVec (s : Sign) : Sign.ofBitVec s.toBitVec = s := by
  cases s <;> rfl

theorem toBitVec_ofBitVec (b : BitVec 1) :
    (Sign.ofBitVec b).toBitVec = b := by
  revert b
  decide

/-- The bits are those of the sign, the exponent and the mantissa. -/
theorem packComponents_unpack (b : BitVec Format.binary64.numBits) :
    packComponents .binary64 (Sign.ofBitVec (unpackSign b)) (unpackExponent b)
      (unpackMantissa b) = b := by
  unfold packComponents
  rw [toBitVec_ofBitVec]
  exact append_extractLsb b

-- ================================================================== packing

/-- The implicit bit is in front of the mantissa. -/
theorem toNat_implicit (m : BitVec 52) :
    (1#1 ++ m).toNat = 2 ^ 52 + m.toNat := by
  rw [BitVec.toNat_append, ← Nat.shiftLeft_add_eq_or_of_lt m.isLt]
  rfl

theorem ofNat_implicit (m : BitVec 52) :
    BitVec.ofNat 52 (2 ^ 52 + m.toNat) = m := by
  apply BitVec.eq_of_toNat_eq
  have := m.isLt
  rw [BitVec.toNat_ofNat]
  omega

theorem log2_implicit (m : BitVec 52) : (2 ^ 52 + m.toNat).log2 = 52 := by
  have := m.isLt
  exact (Nat.log2_eq_iff (by omega)).2 ⟨by omega, by omega⟩

/-- A number of the format, as it is packed. -/
theorem pack_normal (s : Sign) {m : Nat} {e : Int} (h : 0 < m)
    (hm : m.log2 = 52) {x : Nat} (hx : e + 1075 = x) (hless : x < 2047) :
    UnpackedFloat.pack .binary64 (.finite s m e h)
      = packComponents .binary64 s (BitVec.ofNat 11 x) (BitVec.ofNat 52 m) := by
  have biased : (e + Format.binary64.exponentBias
      + Format.binary64.mantissaBitsWithoutImplicit).toNat = x := by
    show (e + (1023 : Nat) + (52 : Nat)).toNat = x
    omega
  unfold UnpackedFloat.pack
  dsimp only
  rw [biased, if_neg (show ¬ 2 ^ 11 ≤ x + 1 by omega), hm]
  exact if_pos rfl

theorem pack_subnormal (s : Sign) {m : Nat} (h : 0 < m) (hm : m < 2 ^ 52) :
    UnpackedFloat.pack .binary64 (.finite s m (-1074) h)
      = packComponents .binary64 s 0#11 (BitVec.ofNat 52 m) := by
  have hlog := (Nat.log2_lt (Nat.ne_of_gt h)).2 hm
  unfold UnpackedFloat.pack
  refine (if_neg (by decide)).trans (if_neg ?_)
  show ¬ m.log2 + 1 = 53
  omega

theorem toNat_lt_of_ne {e : BitVec 11} (h : e ≠ -1#11) : e.toNat < 2047 := by
  have hne : e.toNat ≠ (-1#11).toNat := fun heq => h (BitVec.eq_of_toNat_eq heq)
  have hall : (-1#11).toNat = 2047 := by decide
  have := e.isLt
  omega

theorem pack_unpack_bits {b : BitVec Format.binary64.numBits}
    (valid : Format.binary64.Valid b) :
    UnpackedFloat.pack .binary64 (UnpackedFloat.unpack .binary64 b) = b := by
  refine Eq.trans ?_ (packComponents_unpack b)
  have hnan := valid.eq_packedNaN
  unfold UnpackedFloat.unpack
  dsimp only
  let e : BitVec 11 := unpackExponent b
  let m : BitVec 52 := unpackMantissa b
  -- the exponent is full for what is not finite, and zero for the smallest
  by_cases hfull : e = -1#11
  · rw [if_pos hfull, show unpackExponent b = -1#11 from hfull]
    by_cases hm : m = 0#52
    · rw [if_pos hm, show unpackMantissa b = 0#52 from hm]
      rfl
    · rw [if_neg hm, ← show unpackExponent b = -1#11 from hfull,
        packComponents_unpack]
      exact (hnan hfull hm).symm
  · rw [if_neg hfull]
    by_cases hzero : e = 0#11
    · rw [if_pos hzero, show unpackExponent b = 0#11 from hzero]
      by_cases hm : m = 0#52
      · rw [dif_pos hm, show unpackMantissa b = 0#52 from hm]
        rfl
      · rw [dif_neg hm]
        refine (pack_subnormal _ _ m.isLt).trans ?_
        rw [BitVec.ofNat_toNat, BitVec.setWidth_eq]
    · rw [if_neg hzero]
      have hless := toNat_lt_of_ne hfull
      have hlog := log2_implicit m
      rw [← toNat_implicit] at hlog
      have hexponent : (e.toNat : Int) - ((1023 : Nat) + (52 : Nat)) + 1075
          = e.toNat := by
        omega
      refine (pack_normal _ _ hlog hexponent hless).trans ?_
      rw [BitVec.ofNat_toNat, BitVec.setWidth_eq, toNat_implicit,
        ofNat_implicit]

/-- Taking a float apart loses nothing. -/
theorem pack_unpack (x : Float) : Float.ofModel (.pack (unpack x)) = x := by
  obtain ⟨bits, valid⟩ := x
  have same : UInt64.ofBitVec (UnpackedFloat.pack .binary64
      (UnpackedFloat.unpack .binary64 bits.toBitVec)) = bits := by
    rw [pack_unpack_bits valid]
  exact congrArg Float.ofModel ((Float.Model.mk.injEq _ _ _ _).mpr same)

-- ================================================================ unpacking

/-- The numbers that 64 bits hold if the exponent is not too large: the zeros,
and those that are `Canonical`. -/
inductive Proper : UnpackedFloat → Prop
  | zero (s : Sign) : Proper (.zero s)
  | finite {m : Nat} {e : Int} (s : Sign) (h : 0 < m)
    (canonical : Canonical m e) : Proper (.finite s m e h)

/-- The exponent is not too large. -/
def Fits : UnpackedFloat → Prop
  | .finite _ _ e _ => e ≤ 971
  | _ => True

theorem unpack_zero (s : Sign) :
    UnpackedFloat.unpack .binary64 (packedZero .binary64 s) = .zero s := by
  cases s <;> rfl

theorem unpack_infinity (s : Sign) :
    UnpackedFloat.unpack .binary64 (packedInfinity .binary64 s)
      = .infinity s := by
  cases s <;> rfl

section

variable {b : BitVec Format.binary64.numBits} {s : Sign} {m : Nat} {e : Int}

theorem unpack_normal (h : 0 < m) (hsign : unpackSign b = s.toBitVec)
    (hpos : 0 < (unpackExponent b).toNat)
    (hless : (unpackExponent b).toNat < 2047)
    (hm : 2 ^ 52 + (unpackMantissa b).toNat = m)
    (he : e + 1075 = (unpackExponent b).toNat) :
    UnpackedFloat.unpack .binary64 b = .finite s m e h := by
  have hfull : unpackExponent b ≠ -1#11 := by
    intro heq
    rw [heq] at hless
    exact absurd hless (by decide)
  have hzero : unpackExponent b ≠ 0#11 := by
    intro heq
    rw [heq] at hpos
    exact absurd hpos (by decide)
  unfold UnpackedFloat.unpack
  dsimp only
  rw [if_neg hfull, if_neg hzero, UnpackedFloat.finite.injEq, hsign,
    ofBitVec_toBitVec]
  refine ⟨rfl, (toNat_implicit _).trans hm, ?_⟩
  show ((unpackExponent b).toNat : Int) - ((1023 : Nat) + (52 : Nat)) = e
  omega

theorem unpack_subnormal (h : 0 < m) (hsign : unpackSign b = s.toBitVec)
    (hzero : unpackExponent b = 0#11) (hm : (unpackMantissa b).toNat = m) :
    UnpackedFloat.unpack .binary64 b = .finite s m (-1074) h := by
  have hne : unpackMantissa b ≠ 0#52 := by
    intro heq
    rw [heq] at hm
    exact Nat.ne_of_gt h hm.symm
  unfold UnpackedFloat.unpack
  dsimp only
  rw [if_neg (by rw [hzero]; decide), if_pos hzero, dif_neg hne,
    UnpackedFloat.finite.injEq, hsign, ofBitVec_toBitVec, hzero]
  exact ⟨rfl, hm, rfl⟩

end

/-- A number that 64 bits hold is packed and unpacked as it is. -/
theorem unpack_pack {u : UnpackedFloat} (hu : Proper u) (hfits : Fits u) :
    unpack (.ofModel (.pack u)) = u := by
  show UnpackedFloat.unpack .binary64 (UnpackedFloat.pack .binary64 u) = u
  cases hu with
  | zero s => exact unpack_zero s
  | @finite m e s h canonical =>
    obtain ⟨hm, he, hlead⟩ := canonical
    have hle : e ≤ 971 := hfits
    -- without its leading bit a mantissa is that of the least exponent
    rcases Nat.lt_or_ge m (2 ^ 52) with hlow | hlow
    · obtain rfl := hlead.resolve_left (by omega)
      rw [pack_subnormal s h hlow]
      refine unpack_subnormal h (unpackSign_packComponents s _ _)
        unpackExponent_packComponents ?_
      rw [unpackMantissa_packComponents, BitVec.toNat_ofNat]
      exact Nat.mod_eq_of_lt hlow
    · have hlog : m.log2 = 52 :=
        (Nat.log2_eq_iff (Nat.ne_of_gt h)).2 ⟨hlow, hm⟩
      have hx : e + 1075 = (e + 1075).toNat := by omega
      have exponent : (unpackExponent (packComponents .binary64 s
          (BitVec.ofNat 11 (e + 1075).toNat) (BitVec.ofNat 52 m))).toNat
            = (e + 1075).toNat := by
        rw [unpackExponent_packComponents, BitVec.toNat_ofNat]
        exact Nat.mod_eq_of_lt (show _ < 2048 by omega)
      have mantissa : 2 ^ 52 + (BitVec.ofNat 52 m).toNat = m := by
        rw [BitVec.toNat_ofNat]
        omega
      rw [pack_normal s h hlog hx (by omega)]
      refine unpack_normal h (unpackSign_packComponents s _ _) (by omega)
        (by omega) ?_ (by omega)
      rw [unpackMantissa_packComponents]
      exact mantissa

/-- A number that is too large becomes infinite. -/
theorem unpack_pack_infinity {s : Sign} {m : Nat} {e : Int} (h : 0 < m)
    (hlarge : 971 < e) :
    unpack (.ofModel (.pack (.finite s m e h))) = .infinity s := by
  show UnpackedFloat.unpack .binary64 (UnpackedFloat.pack .binary64 _) = _
  have overflows : 2 ^ Format.binary64.exponentBits
      ≤ (e + Format.binary64.exponentBias
        + Format.binary64.mantissaBitsWithoutImplicit).toNat + 1 := by
    show 2 ^ 11 ≤ (e + (1023 : Nat) + (52 : Nat)).toNat + 1
    omega
  unfold UnpackedFloat.pack
  dsimp only
  rw [if_pos overflows]
  exact unpack_infinity s

/-- Bits are infinite, no number, or a number that 64 bits hold. -/
theorem unpack_bits (b : BitVec Format.binary64.numBits) :
    (∃ s, UnpackedFloat.unpack .binary64 b = .infinity s)
    ∨ UnpackedFloat.unpack .binary64 b = .notANumber
    ∨ Proper (UnpackedFloat.unpack .binary64 b)
      ∧ Fits (UnpackedFloat.unpack .binary64 b) := by
  unfold UnpackedFloat.unpack
  dsimp only
  let e : BitVec 11 := unpackExponent b
  let m : BitVec 52 := unpackMantissa b
  by_cases hfull : e = -1#11
  · rw [if_pos hfull]
    by_cases hm : m = 0#52
    · rw [if_pos hm]
      exact .inl ⟨_, rfl⟩
    · rw [if_neg hm]
      exact .inr (.inl rfl)
  · rw [if_neg hfull]
    refine .inr (.inr ?_)
    by_cases hzero : e = 0#11
    · rw [if_pos hzero]
      by_cases hm : m = 0#52
      · rw [dif_pos hm]
        exact ⟨.zero _, trivial⟩
      · rw [dif_neg hm]
        -- both the lowest exponents stand for the least one
        have least : (e.toNat : Int) - ((1023 : Nat) + (52 : Nat)) + 1
            = -1074 := by
          rw [hzero]
          rfl
        have hless := m.isLt
        refine ⟨.finite _ _ ⟨?_, ?_, .inr least⟩, ?_⟩
        · show m.toNat < 2 ^ 53
          omega
        · exact Int.le_of_eq least.symm
        · exact Int.le_trans (Int.le_of_eq least) (by decide)
    · rw [if_neg hzero]
      -- the leading bit is put before the mantissa that is stored
      have hless : e.toNat < 2047 := toNat_lt_of_ne hfull
      have hpos : 0 < e.toNat :=
        Nat.pos_of_ne_zero fun h => hzero (BitVec.eq_of_toNat_eq h)
      have hm := toNat_implicit m
      have hm' := m.isLt
      refine ⟨.finite _ _ ⟨?_, ?_, .inl ?_⟩, ?_⟩
      · show (1#1 ++ m).toNat < 2 ^ 53
        omega
      · show -1074 ≤ (e.toNat : Int) - ((1023 : Nat) + (52 : Nat))
        omega
      · show 2 ^ 52 ≤ (1#1 ++ m).toNat
        omega
      · show (e.toNat : Int) - ((1023 : Nat) + (52 : Nat)) ≤ 971
        omega

theorem unpack_cases (x : Float) :
    (∃ s, unpack x = .infinity s) ∨ unpack x = .notANumber
      ∨ Proper (unpack x) ∧ Fits (unpack x) :=
  unpack_bits x.toModel.toBits.toBitVec

/-- A finite float is a number that 64 bits hold. -/
theorem proper_of_isFinite {x : Float} (h : isFinite x = true) :
    Proper (unpack x) ∧ Fits (unpack x) := by
  unfold isFinite at h
  rcases unpack_cases x with ⟨s, hu⟩ | hu | hu
  · rw [hu] at h
    cases h
  · rw [hu] at h
    cases h
  · exact hu

end Stencil.Number
