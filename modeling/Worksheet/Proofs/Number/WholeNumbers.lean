-- Whole numbers below 10^15 are kept: written with their digits they are read as the double that is
-- exactly the number, and that double is shown with the same digits.
import Worksheet.Proofs.Formula.Results
import Worksheet.Proofs.Number.Reading

namespace Worksheet.Number

open Worksheet.Formula

theorem binaryOrder_one {n : Nat} (h : 0 < n) : binaryOrder n 1 = n.log2 := by
  have one : Nat.log2 1 = 0 := by decide
  have least : 2 ^ n.log2 ≤ n := Nat.log2_self_le h.ne'
  simp only [binaryOrder, one, Nat.cast_zero, Int.sub_zero, Int.toNat_natCast,
    Int.toNat_neg_natCast, Nat.pow_eq, Nat.pow_zero, Nat.mul_one, Nat.one_mul]
  exact if_pos least

/-- The digits of a whole number in base two fill the significand up with zeros. -/
theorem significand_bounds {n : Nat} (some : 0 < n) (order : n.log2 ≤ 52) :
    leadingBit ≤ n * 2 ^ (52 - n.log2) ∧ n * 2 ^ (52 - n.log2) < 2 * leadingBit := by
  have least : 2 ^ n.log2 ≤ n := Nat.log2_self_le some.ne'
  have most : n < 2 ^ (n.log2 + 1) := Nat.lt_log2_self
  have full : 2 ^ n.log2 * 2 ^ (52 - n.log2) = leadingBit := by
    rw [← Nat.pow_add, Nat.add_sub_cancel' order]
    rfl
  constructor
  · rw [← full]
    exact Nat.mul_le_mul_right _ least
  · rw [← full, ← Nat.mul_assoc, ← Nat.pow_succ']
    exact Nat.mul_lt_mul_of_pos_right most (Nat.pow_pos (by decide))

/-- A whole number below 2^53 is a double: all its digits in base two are in the significand. -/
theorem parts_nearest_whole {n : Nat} (some : 0 < n) (small : n < 2 ^ 53) (negative : Bool) :
    parts (nearest negative n 1) =
      { negative := negative
        significand := n * 2 ^ (52 - n.log2)
        exponent := n.log2 - 52 } := by
  have order : n.log2 ≤ 52 := by
    have := (Nat.log2_lt some.ne').2 small
    omega
  obtain ⟨least, most⟩ := significand_bounds some order
  have power : (-((n.log2 : ℤ) - 52)).toNat = 52 - n.log2 := by omega
  have whole : ((n.log2 : ℤ) - 52).toNat = 0 := by omega
  have bits : nearestBits n 1 =
      (n.log2 + 1023) * leadingBit + (n * 2 ^ (52 - n.log2) - leadingBit) := by
    have units : max ((n.log2 : ℤ) - 52) (-1074) = n.log2 - 52 := by omega
    have field : ((n.log2 : ℤ) - 52 + 1074).toNat = n.log2 + 1022 := by omega
    simp only [nearestBits, if_neg some.ne', binaryOrder_one some, units, power, whole, field,
      Nat.pow_eq, Nat.pow_zero, Nat.mul_one]
    rw [roundDiv_of_dvd Nat.one_pos (Nat.mod_one _), Nat.div_one]
    unfold leadingBit infinityBits at *
    omega
  rw [nearest, bits, parts_ofSignBits negative]
  · have exponent : ((n.log2 + 1023 : Nat) : ℤ) - 1075 = n.log2 - 52 := by omega
    rw [if_neg (by omega), if_neg (by omega), Nat.add_sub_cancel' least, exponent]
  · unfold lastExponent exponentCount
    omega
  · omega

/-- So the double of a whole number is the number. -/
theorem ratio_nearest_whole {n : Nat} (small : n < 2 ^ 53) (negative : Bool) :
    (parts (nearest negative n 1)).negative = negative ∧
      (parts (nearest negative n 1)).num = n * (parts (nearest negative n 1)).den := by
  rcases Nat.eq_zero_or_pos n with rfl | some
  · have bits : nearestBits 0 1 = 0 * leadingBit + 0 := rfl
    rw [nearest, bits, parts_ofSignBits negative (by decide) (by decide)]
    exact ⟨rfl, by rw [Parts.num, if_pos rfl, Nat.zero_mul, Nat.zero_mul]⟩
  · rw [parts_nearest_whole some small]
    have order : n.log2 ≤ 52 := by
      have := (Nat.log2_lt some.ne').2 small
      omega
    have power : (-((n.log2 : ℤ) - 52)).toNat = 52 - n.log2 := by omega
    have whole : ((n.log2 : ℤ) - 52).toNat = 0 := by omega
    simp only [Parts.num, Parts.den, power, whole, Nat.pow_eq, Nat.pow_zero, Nat.mul_one]
    exact ⟨trivial, trivial⟩

/-- The double of a whole number below 10^15 is shown with the digits of the number. -/
theorem display_nearest_whole {n : Nat} (small : n < wholeEnd) (negative : Bool) :
    (parts (nearest negative n 1)).display = signed (negative && n != 0) (Nat.toDigits 10 n) := by
  obtain ⟨sign, ratio⟩ := ratio_nearest_whole (small.trans (by decide)) negative
  have positive := (parts (nearest negative n 1)).den_pos
  generalize parts (nearest negative n 1) = p at sign ratio positive
  have quotient : p.num / p.den = n := by rw [ratio, Nat.mul_div_cancel _ positive]
  have plain : p.isPlain = true := by
    rw [Parts.isPlain, quotient, decide_eq_true small, ratio, Nat.mul_mod_left]
    rfl
  rw [Parts.display, if_pos plain, quotient, sign]
  rfl

theorem toFloat_toDigits {n : Nat} (small : n < wholeEnd) (negative : Bool) :
    Decimal.toFloat negative ⟨(Nat.toDigits 10 n).map digitOf, 0⟩ = nearest negative n 1 := by
  have length : (Nat.toDigits 10 n).length ≤ 15 :=
    (Nat.length_toDigits_le_iff (by decide) (by decide)).2 small
  have value := ofDigits_dropWhile ((Nat.toDigits 10 n).map digitOf)
  have shorter := (List.dropWhile_sublist (· == 0) (l := (Nat.toDigits 10 n).map digitOf)).length_le
  rw [ofDigits_toDigits] at value
  rw [List.length_map] at shorter
  unfold Decimal.toFloat
  dsimp only
  generalize ((Nat.toDigits 10 n).map digitOf).dropWhile (· == 0) = ds at value shorter
  cases ds with
  | nil =>
    rw [← value]
    rfl
  | cons d ds =>
    have within : ¬((d :: ds).length : ℤ) + 0 < -330 ∧ ¬310 < ((d :: ds).length : ℤ) + 0 := by omega
    rw [List.isEmpty_cons, Bool.false_or, decide_eq_false within.1, if_neg Bool.false_ne_true,
      if_neg within.2, value]
    exact congrArg (nearest negative · 1) (Nat.mul_one n)

theorem toString_eq_signed (n : Int) :
    toString n = signed (decide (n < 0)) (Nat.toDigits 10 n.natAbs) := by
  cases n with
  | ofNat m =>
    have sign : decide (Int.ofNat m < 0) = false := decide_eq_false (Int.natCast_nonneg m).not_gt
    rw [sign]
    exact Nat.repr_eq_ofList_toDigits
  | negSucc m =>
    have sign : decide (Int.negSucc m < 0) = true := decide_eq_true (Int.negSucc_lt_zero m)
    have text : toString (Int.negSucc m) = "-" ++ Nat.repr (m + 1) := rfl
    rw [sign, text, Nat.repr_eq_ofList_toDigits, signed, if_pos rfl, ← String.toList_inj,
      String.toList_append, String.toList_ofList, String.toList_ofList, String.toList_ofList]
    rfl

/-- An integer below 10^15 in size is kept by a cell: typed in with its digits it is read as the
double that is the integer, and this is shown with the same digits. -/
theorem exists_number_of_integer {n : Int} (small : n.natAbs < wholeEnd) :
    ∃ x : Float, x.isFinite = true ∧
      (parts x).negative = decide (n < 0) ∧ (parts x).num = n.natAbs * (parts x).den ∧
      read? (toString n) = some x ∧ Value.ofLiteral? (toString n) = some (.number x) ∧
      (Value.number x).display = .ok (toString n) := by
  have spells := spells_toDigits n.natAbs
  have before : Decimal.value ⟨(Nat.toDigits 10 n.natAbs).map digitOf, 0⟩ < overflow := by
    rw [value_toDigits]
    exact cast_lt_overflow_of_lt_pow (small.trans (by decide))
  have finite := (Decimal.isFinite_toFloat_iff spells.digits_lt (decide (n < 0))).2 before
  rw [toFloat_toDigits small] at finite
  obtain ⟨nan, inf⟩ := not_special_of_isFinite finite
  obtain ⟨sign, size⟩ := ratio_nearest_whole (small.trans (by decide)) (decide (n < 0))
  refine ⟨_, finite, sign, size, ?_, ?_,
    (Value.displayNumber_of_isFinite nan inf).trans (congrArg _ ?_)⟩
  · rw [toString_eq_signed, spells.read?_signed, toFloat_toDigits small]
  · rw [toString_eq_signed, spells.ofLiteral?_signed, if_pos before, toFloat_toDigits small]
  · rw [toString_eq_signed, display_nearest_whole small]
    have shown : (decide (n < 0) && n.natAbs != 0) = decide (n < 0) := by
      rw [Bool.and_eq_left_iff_imp, decide_eq_true_eq, bne_iff_ne]
      omega
    rw [shown]

end Worksheet.Number
