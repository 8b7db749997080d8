import Mathlib
import Calculator.Numeral.Magnitude

/-!
# Doubles are their bit patterns

The model of a double is its bit pattern, in which only one pattern stands for
the double that is no number.  Packing a double anew from its unpacked form
gives the same pattern back, so a double is determined by its bits
(`ofBits_toBits`), and by its sign and magnitude (`toFloat_of_ofFloat?`,
`eq_notANumber_of_ofFloat?`).
-/

namespace Calculator.Numeral

open Float.Model Float.Model.UnpackedFloat

/-! ## Packing undoes unpacking -/

private theorem toBitVec_ofBitVec (b : BitVec 1) : (Sign.ofBitVec b).toBitVec = b := by
  revert b
  decide

/-- A pattern is made of its three fields. -/
private theorem packComponents_fields (b : BitVec Format.binary64.numBits) :
    packComponents .binary64 (Sign.ofBitVec (unpackSign b)) (unpackExponent b)
      (unpackMantissa b) = b := by
  rw [packComponents, toBitVec_ofBitVec]
  ext i hi
  simp [unpackSign, unpackExponent, unpackMantissa]
  grind

/-- A significand below the least normal one packs with a zero exponent. -/
private theorem pack_subnormal (s : UnpackedFloat.Sign) (m : BitVec 52) (e : Int)
    (he : e = -1074) (h : 0 < m.toNat) :
    UnpackedFloat.pack .binary64 (.finite s m.toNat e h) =
      packComponents .binary64 s 0#_ m := by
  have hlog : m.toNat.log2 < 52 := (Nat.log2_lt (by omega)).2 m.isLt
  have hne : ¬ m.toNat.log2 + 1 = Format.binary64.mantissaBits := by
    simp only [Format.mantissaBits]
    omega
  subst he
  simp only [UnpackedFloat.pack, hne, if_false]
  simp [Format.exponentBias]

/-- A significand with its leading bit packs with the exponent it came with. -/
private theorem pack_normal (s : UnpackedFloat.Sign) (m : BitVec 52) (e : BitVec 11) (x : Int)
    (hx : x = e.toNat - 1075) (he : e ≠ -1#11) (h : 0 < (1#1 ++ m).toNat) :
    UnpackedFloat.pack .binary64 (.finite s (1#1 ++ m).toNat x h) =
      packComponents .binary64 s e m := by
  have hm := m.isLt
  have hv : (1#1 ++ m).toNat = 2 ^ 52 + m.toNat := by
    simp only [BitVec.toNat_append, BitVec.toNat_ofNat, Nat.shiftLeft_eq]
    rw [← Nat.two_pow_add_eq_or_of_lt hm 1, Nat.mul_one]
  have hlog : (1#1 ++ m).toNat.log2 = 52 := by
    rw [Nat.log2_eq_iff (by omega)]
    omega
  have hlt : e.toNat < 2047 := by
    have hne : e.toNat ≠ 2047 := fun hc => he (BitVec.eq_of_toNat_eq (by simp [hc]))
    omega
  have hb : ((e.toNat : Int) - 1075 + 1023 + 52).toNat = e.toNat := by omega
  subst hx
  simp [UnpackedFloat.pack, Format.exponentBias, hlog, Format.mantissaBits, hb]
  rw [if_neg (by omega)]
  congr 1
  apply BitVec.eq_of_toNat_eq
  rw [BitVec.toNat_setWidth, hv]
  omega

private theorem pack_unpack (b : BitVec Format.binary64.numBits) (h : Format.binary64.Valid b) :
    UnpackedFloat.pack .binary64 (UnpackedFloat.unpack .binary64 b) = b := by
  have key := packComponents_fields b
  unfold UnpackedFloat.unpack
  dsimp only
  split
  · rename_i he
    split
    · rename_i hm
      rw [he, hm] at key
      exact key
    · rename_i hm
      exact (h.eq_packedNaN he hm).symm
  · rename_i he
    split
    · rename_i hz
      rw [hz] at key
      split
      · rename_i hm
        rw [hm] at key
        exact key
      · rw [pack_subnormal _ _ _ (by rw [hz]; rfl)]
        exact key
    · rw [pack_normal _ _ (unpackExponent b) _ (by simp [Format.exponentBias]) he]
      exact key

/-- A double is determined by its bits. -/
theorem ofBits_toBits (x : Float) : Float.ofBits x.toBits = x := by
  obtain ⟨⟨b, h⟩⟩ := x
  simp only [Float.ofBits, Float.toBits, Float.Model.ofBits, Float.Model.pack, pack_unpack _ h]

/-! ## Signs and magnitudes -/

/-- A double is determined by its sign and magnitude. -/
theorem toFloat_of_ofFloat? {x : Float} {sign : Numeral.Sign} {magnitude : Nat}
    (h : ofFloat? x = some (sign, magnitude)) :
    toFloat sign magnitude = x ∧ magnitude ≤ infinity := by
  have hx := ofBits_toBits x
  have hlt := x.toBits.toNat_lt
  have hself : UInt64.ofNat x.toBits.toNat = x.toBits := UInt64.ofNat_toNat
  simp only [ofFloat?] at h
  split at h
  · simp at h
  · rename_i hle
    simp only [Option.some.injEq, Prod.mk.injEq] at h
    obtain ⟨hs, rfl⟩ := h
    refine ⟨?_, by omega⟩
    subst hs
    split
    · rename_i hpos
      rw [toFloat, Nat.mod_eq_of_lt hpos, hself, hx]
    · rename_i hneg
      have hsum : signBit + x.toBits.toNat % signBit = x.toBits.toNat := by
        simp only [signBit] at hneg ⊢
        omega
      rw [toFloat, hsum, hself, hx]

/-- Only one double is no number. -/
theorem eq_notANumber_of_ofFloat? {x : Float} (h : ofFloat? x = none) : x = notANumber := by
  have hvalid := x.toModel.valid.eq_packedNaN
  have hlt := x.toBits.toNat_lt
  simp only [ofFloat?] at h
  split at h
  · rename_i hbig
    simp only [infinity, binade, signBit] at hbig
    have hbits : x.toModel.toBits = x.toBits := rfl
    have hnat : x.toBits.toBitVec.toNat = x.toBits.toNat := rfl
    rw [hbits] at hvalid
    have hexp : @unpackExponent .binary64 x.toBits.toBitVec = -1#_ := by
      apply BitVec.eq_of_toNat_eq
      simp [unpackExponent, hnat, Nat.shiftRight_eq_div_pow]
      omega
    have hman : @unpackMantissa .binary64 x.toBits.toBitVec ≠ 0#_ := by
      intro hc
      have := congrArg BitVec.toNat hc
      simp [unpackMantissa, hnat] at this
      omega
    have hnan := hvalid hexp hman
    rw [← ofBits_toBits x, notANumber]
    congr 1
    apply UInt64.toBitVec_inj.1
    rw [hnan]
    rfl
  · simp at h

end Calculator.Numeral
