-- Doubles are their bits: what is put together from a sign and the bits after it has exactly these
-- bits, and is finite when they come before those of infinity.
import Mathlib
import Worksheet.Number.Double

namespace Worksheet.Number

open Float.Model Float.Model.UnpackedFloat

/-- The exponent of infinity and of what is no number. -/
def lastExponent : Nat := exponentCount - 1

theorem exponent_field (b : BitVec 64) :
    (@unpackExponent .binary64 b).toNat = b.toNat / leadingBit % exponentCount := by
  simp [unpackExponent, BitVec.extractLsb_toNat, Nat.shiftRight_eq_div_pow, leadingBit,
    exponentCount]

theorem fraction_field (b : BitVec 64) :
    (@unpackMantissa .binary64 b).toNat = b.toNat % leadingBit := by
  simp [unpackMantissa, BitVec.extractLsb_toNat, leadingBit]

theorem exponent_eq_last_iff (b : BitVec 64) :
    @unpackExponent .binary64 b = -1#11 ↔
      b.toNat / leadingBit % exponentCount = lastExponent := by
  rw [← BitVec.toNat_inj, exponent_field]
  rfl

theorem fraction_eq_zero_iff (b : BitVec 64) :
    @unpackMantissa .binary64 b = 0#52 ↔ b.toNat % leadingBit = 0 := by
  rw [← BitVec.toNat_inj, fraction_field]
  rfl

theorem toBits_ofBits {b : UInt64}
    (h : b.toNat / leadingBit % exponentCount = lastExponent → b.toNat % leadingBit = 0) :
    (Float.ofBits b).toBits = b := by
  have number : ¬@isNaNBits .binary64 b.toBitVec = true := by
    rw [isNaNBits, decide_eq_true_eq, exponent_eq_last_iff, ne_eq, fraction_eq_zero_iff]
    exact fun nan => nan.2 (h nan.1)
  change UInt64.ofBitVec ((unpack .binary64 b.toBitVec).pack .binary64) = b
  rw [pack_unpack, if_neg number]

theorem isFinite_iff (x : Float) :
    x.isFinite = true ↔ x.toBits.toNat / leadingBit % exponentCount ≠ lastExponent := by
  change (UnpackedFloat.unpack .binary64 x.toBits.toBitVec).isFinite = true ↔ _
  rw [← UInt64.toNat_toBitVec, ne_eq, ← exponent_eq_last_iff, UnpackedFloat.unpack]
  split
  · rename_i last
    split <;> exact iff_of_false Bool.false_ne_true (fun notLast => notLast last)
  · rename_i notLast
    split
    · split <;> exact iff_of_true rfl notLast
    · exact iff_of_true rfl notLast

theorem toNat_signed {negative : Bool} {bits : Nat} (h : bits ≤ infinityBits) :
    (UInt64.ofNat (if negative then signBit + bits else bits)).toNat =
      if negative then signBit + bits else bits := by
  refine UInt64.toNat_ofNat_of_lt' ?_
  unfold signBit infinityBits at *
  rw [UInt64.size]
  split <;> omega

theorem toNat_toBits_ofSignBits {negative : Bool} {bits : Nat} (h : bits ≤ infinityBits) :
    (ofSignBits negative bits).toBits.toNat = if negative then signBit + bits else bits := by
  rw [ofSignBits, toBits_ofBits, toNat_signed h]
  rw [toNat_signed h]
  unfold signBit infinityBits leadingBit exponentCount lastExponent exponentCount at *
  split <;> omega

theorem isFinite_ofSignBits {negative : Bool} {bits : Nat} (h : bits ≤ infinityBits) :
    (ofSignBits negative bits).isFinite = true ↔ bits < infinityBits := by
  rw [isFinite_iff, toNat_toBits_ofSignBits h]
  unfold signBit infinityBits leadingBit exponentCount lastExponent exponentCount at *
  split <;> omega

theorem parts_ofSignBits (negative : Bool) {field fraction : Nat} (hfield : field < lastExponent)
    (hfraction : fraction < leadingBit) :
    parts (ofSignBits negative (field * leadingBit + fraction)) =
      { negative := negative
        significand := if field = 0 then fraction else leadingBit + fraction
        exponent := if field = 0 then -1074 else (field : Int) - 1075 } := by
  have range : field * leadingBit + fraction ≤ infinityBits := by
    unfold infinityBits leadingBit lastExponent exponentCount at *
    omega
  have word := @toNat_toBits_ofSignBits negative _ range
  generalize ofSignBits negative (field * leadingBit + fraction) = x at word
  have sign : decide (signBit ≤ x.toBits.toNat) = negative := by
    rw [word]
    unfold signBit leadingBit lastExponent exponentCount at *
    cases negative
    · simp
      omega
    · simp
  have exponent : x.toBits.toNat / leadingBit % exponentCount = field := by
    rw [word]
    unfold signBit leadingBit lastExponent exponentCount at *
    split <;> omega
  have rest : x.toBits.toNat % leadingBit = fraction := by
    rw [word]
    unfold signBit leadingBit lastExponent exponentCount at *
    split <;> omega
  simp only [parts, sign, exponent, rest]

end Worksheet.Number
