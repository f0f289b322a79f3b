-- What a cell shows for a number is read back as a number, for every finite double but the four
-- largest of either sign, which are shown with more than the largest double.
import Worksheet.Proofs.Formula.Results
import Worksheet.Proofs.Number.Reading

namespace Worksheet.Number

open Worksheet.Formula

/-! ## Rounding to the digits that a cell shows -/

/-- From here on numbers are shown with more than the largest double. -/
def shownEnd : Nat := 1797693134862315 * 10 ^ 293

/-- Where it stands among the powers of ten, the numbers of fifteen digits and the point from which
on nothing is read as a finite double. -/
theorem shownEnd_order :
    wholeEnd < 10 ^ 308 ∧ 10 ^ 308 < 179769313486231 * 10 ^ 294 ∧
      179769313486231 * 10 ^ 294 < shownEnd ∧ shownEnd < (2 ^ 54 - 1) * 2 ^ 970 ∧
      (2 ^ 54 - 1) * 2 ^ 970 ≤ 179769313486232 * 10 ^ 294 ∧
      179769313486232 * 10 ^ 294 ≤ 10 ^ 309 := by
  decide +kernel

theorem ten_zpow (n : Nat) : (10 : ℚ) ^ (n : ℤ) = (10 ^ n : Nat) := by
  rw [zpow_natCast, Nat.cast_pow, Nat.cast_ofNat]

theorem pow_mul_zpow (a : Nat) {k n : ℤ} (h : n = a + k) :
    ((10 ^ a : Nat) : ℚ) * (10 : Nat) ^ k = 10 ^ n := by
  rw [h, zpow_add₀ (by norm_num), ten_zpow, Nat.cast_ofNat]

theorem inTens_bounds {num den : Nat} (hn : 0 < num) (hd : 0 < den) :
    10 ^ 14 ≤ inTens num den (decimalOrder num den - 14) ∧
      inTens num den (decimalOrder num den - 14) ≤ 10 ^ 15 := by
  obtain ⟨least, most⟩ := decimalOrder_spec hn hd
  generalize decimalOrder num den = n at least most ⊢
  constructor
  · refine le_inUnits (by decide) hd ?_
    rwa [pow_mul_zpow 14 (n := n) (by ring)]
  · refine inUnits_le (by decide) hd ?_
    rw [pow_mul_zpow 15 (n := n + 1) (by push_cast; ring)]
    exact most.le

/-- The leading digits of a ratio are fifteen, and say what the ratio is rounded to in units of the
last of them. -/
theorem leadingDigits_spec {num den d : Nat} {k : Int} (hn : 0 < num) (hd : 0 < den)
    (h : leadingDigits cellDigits num den = (d, k)) :
    10 ^ 14 ≤ d ∧ d < 10 ^ 15 ∧
      (d : ℚ) * 10 ^ (k - 14) = inTens num den (decimalOrder num den - 14) *
        10 ^ (decimalOrder num den - 14) := by
  obtain ⟨least, most⟩ := inTens_bounds hn hd
  have places : ((cellDigits - 1 : Nat) : ℤ) = 14 := rfl
  simp only [leadingDigits, places] at h
  generalize decimalOrder num den = n at least most h ⊢
  split at h
  · rename_i full
    obtain ⟨rfl, rfl⟩ := Prod.mk.inj h
    refine ⟨by decide, by decide, ?_⟩
    rw [full]
    exact (pow_mul_zpow 14 (n := n + 1) (by push_cast; ring)).trans
      (pow_mul_zpow 15 (by push_cast; ring)).symm
  · rename_i part
    obtain ⟨rfl, rfl⟩ := Prod.mk.inj h
    exact ⟨least, Nat.lt_of_le_of_ne most part, rfl⟩

/-- With the first of fifteen digits at the order of the largest double, all up to this one stand
for a finite one. -/
theorem digits_lt_overflow_iff (m : Nat) :
    (m : ℚ) * 10 ^ ((308 : ℤ) - 14) < overflow ↔ m ≤ 179769313486231 := by
  have whole : (m : ℚ) * 10 ^ ((308 : ℤ) - 14) = (m * 10 ^ 294 : Nat) := by
    rw [show (308 : ℤ) - 14 = (294 : Nat) from rfl, ten_zpow, Nat.cast_mul]
  rw [whole]
  obtain ⟨-, -, before, past, next, -⟩ := shownEnd_order
  constructor
  · intro less
    by_contra more
    have least : 179769313486232 * 10 ^ 294 ≤ m * 10 ^ 294 := Nat.mul_le_mul_right _ (by omega)
    exact absurd less (not_lt.2 (overflow_le_cast (next.trans least)))
  · intro least
    exact cast_lt_overflow ((Nat.mul_le_mul_right _ least).trans_lt (before.trans past))

/-- Where a ratio is rounded to, and where the double nearest to that stops being finite. -/
theorem rounded_lt_overflow_iff {num den : Nat} (hn : 0 < num) (hd : 0 < den) :
    (inTens num den (decimalOrder num den - 14) : ℚ) * 10 ^ (decimalOrder num den - 14) < overflow ↔
      (num : ℚ) / den < shownEnd := by
  obtain ⟨least, most⟩ := decimalOrder_spec hn hd
  obtain ⟨low, high⟩ := inTens_bounds hn hd
  obtain ⟨-, small, before, past, next, large⟩ := shownEnd_order
  have low : ((10 ^ 14 : Nat) : ℚ) ≤ inTens num den (decimalOrder num den - 14) := by
    exact_mod_cast low
  have high : (inTens num den (decimalOrder num den - 14) : ℚ) ≤ (10 ^ 15 : Nat) := by
    exact_mod_cast high
  generalize decimalOrder num den = n at least most low high ⊢
  rcases lt_trichotomy n 308 with less | rfl | more
  · have top : (10 : ℚ) ^ (n + 1) ≤ (10 ^ 308 : Nat) := by
      rw [← ten_zpow]
      exact zpow_le_zpow_right₀ (by norm_num) (by omega)
    refine iff_of_true ?_ ?_
    · calc (inTens num den (n - 14) : ℚ) * 10 ^ (n - 14)
          ≤ (10 ^ 15 : Nat) * 10 ^ (n - 14) := mul_le_mul_of_nonneg_right high (by positivity)
        _ = 10 ^ (n + 1) := pow_mul_zpow 15 (by push_cast; ring)
        _ ≤ (10 ^ 308 : Nat) := top
        _ < overflow := cast_lt_overflow (small.trans (before.trans past))
    · calc (num : ℚ) / den < 10 ^ (n + 1) := most
        _ ≤ (10 ^ 308 : Nat) := top
        _ < shownEnd := Nat.cast_lt.2 (small.trans before)
  · -- The only order at which the two differ: the last digit that still gives a finite double is
    -- odd, so halfway past it the rounding goes up, as it does for everything above.
    have half : (shownEnd : ℚ) =
        ((179769313486231 : Nat) + 1 / 2) * (10 : Nat) ^ ((308 : ℤ) - 14) := by
      rw [show (308 : ℤ) - 14 = (294 : Nat) from rfl, zpow_natCast, ← Nat.cast_pow, shownEnd,
        pow_succ 10 293]
      generalize 10 ^ 293 = p
      push_cast
      ring
    rw [digits_lt_overflow_iff, half]
    exact inUnits_le_iff_of_odd (by decide) hd (by decide)
  · have bottom : ((10 ^ 309 : Nat) : ℚ) ≤ 10 ^ n := by
      rw [← ten_zpow]
      exact zpow_le_zpow_right₀ (by norm_num) (by omega)
    refine iff_of_false (not_lt.2 ?_) (not_lt.2 ?_)
    · calc overflow ≤ (10 ^ 309 : Nat) := overflow_le_cast (next.trans large)
        _ ≤ 10 ^ n := bottom
        _ = (10 ^ 14 : Nat) * 10 ^ (n - 14) := (pow_mul_zpow 14 (by ring)).symm
        _ ≤ inTens num den (n - 14) * 10 ^ (n - 14) :=
          mul_le_mul_of_nonneg_right low (by positivity)
    · calc (shownEnd : ℚ) ≤ (10 ^ 309 : Nat) := Nat.cast_le.2 (past.le.trans (next.trans large))
        _ ≤ 10 ^ n := bottom
        _ ≤ num / den := least

/-! ## What a cell shows -/

theorem length_toDigits {n d : Nat} (least : 10 ^ n ≤ d) (most : d < 10 ^ (n + 1)) :
    (Nat.toDigits 10 d).length = n + 1 := by
  have upper := (Nat.length_toDigits_le_iff (b := 10) (by decide) n.succ_pos).2 most
  rcases Nat.eq_zero_or_pos n with rfl | positive
  · exact Nat.le_antisymm upper Nat.length_toDigits_pos
  · have lower := mt (Nat.length_toDigits_le_iff (b := 10) (by decide) positive).1
      (Nat.not_lt.2 least)
    omega

/-- A cell shows a number as the text of a decimal, which stands for a finite double just where
the number comes before `shownEnd`. -/
theorem exists_spells_display (p : Parts) : ∃ negative cs d, p.display = signed negative cs ∧
    Spells cs d ∧ (d.value < overflow ↔ p.num < shownEnd * p.den) := by
  have ratio : p.num < shownEnd * p.den ↔ (p.num : ℚ) / p.den < shownEnd := by
    have positive : (0 : ℚ) < p.den := by exact_mod_cast p.den_pos
    rw [div_lt_iff₀ positive]
    exact_mod_cast Iff.rfl
  unfold Parts.display
  split
  · rename_i plain
    simp only [Parts.isPlain, Bool.and_eq_true, beq_iff_eq, decide_eq_true_eq] at plain
    obtain ⟨whole, small⟩ := plain
    refine ⟨p.negative && p.num / p.den != 0, _, _, rfl, spells_toDigits _, ?_⟩
    rw [value_toDigits]
    obtain ⟨end_lt, power_lt, before, past, -⟩ := shownEnd_order
    have small : p.num / p.den < shownEnd := small.trans (end_lt.trans (power_lt.trans before))
    exact iff_of_true (cast_lt_overflow (small.trans past))
      ((Nat.div_lt_iff_lt_mul p.den_pos).1 small)
  · rename_i notPlain
    have some : 0 < p.num := by
      refine Nat.pos_of_ne_zero fun zero => notPlain ?_
      rw [Parts.isPlain, zero, Nat.zero_mod, Nat.zero_div]
      rfl
    cases digits : leadingDigits cellDigits p.num p.den with
    | mk d k =>
      obtain ⟨least, most, value⟩ := leadingDigits_spec some p.den_pos digits
      obtain ⟨cs, text, decimal, spells, same⟩ := shows_layout cellStyle p.negative
        (Nat.toDigits_ne_nil (b := 10) (n := d)) (fun _ hc => isDigit_of_mem_toDigits hc) k
      refine ⟨p.negative, cs, decimal, text, spells, ?_⟩
      have places : k + 1 - ((14 + 1 : Nat) : ℤ) = k - 14 := by
        push_cast
        ring
      rw [same, laidOut, ofDigits_toDigits, length_toDigits least most, places, value, ratio]
      exact rounded_lt_overflow_iff some p.den_pos

/-! ## The numbers that are shown as more than they are -/

def largestExponent : Nat := 971

/-- The double before `shownEnd` and the one after it. -/
theorem shownEnd_between :
    (2 ^ 53 - 5) * 2 ^ largestExponent < shownEnd ∧
      shownEnd ≤ (2 ^ 53 - 4) * 2 ^ largestExponent := by
  decide +kernel

/-- Of the doubles with the largest exponent, the last four are from `shownEnd` on. -/
theorem shownEnd_le_mul_iff (m : Nat) :
    shownEnd ≤ m * Nat.pow 2 largestExponent ↔ 2 ^ 53 - 4 ≤ m := by
  obtain ⟨fifth, fourth⟩ := shownEnd_between
  rw [Nat.pow_eq]
  generalize 2 ^ largestExponent = p at fifth fourth ⊢
  constructor
  · intro least
    by_contra less
    have few : m * p ≤ (2 ^ 53 - 5) * p := Nat.mul_le_mul_right p (by omega)
    exact absurd (fifth.trans_le least) (Nat.not_lt.2 few)
  · intro least
    exact fourth.trans (Nat.mul_le_mul_right _ least)

theorem lt_shownEnd {m e : Nat} (hm : m < 2 ^ 53) (he : e < largestExponent) :
    m * Nat.pow 2 e < shownEnd := by
  rw [Nat.pow_eq]
  calc m * 2 ^ e < 2 ^ 53 * 2 ^ e := Nat.mul_lt_mul_of_pos_right hm (by positivity)
    _ = 2 ^ 52 * 2 ^ (e + 1) := by ring
    _ ≤ 2 ^ 52 * 2 ^ largestExponent :=
      Nat.mul_le_mul_left _ (Nat.pow_le_pow_right (by decide) he)
    _ ≤ (2 ^ 53 - 5) * 2 ^ largestExponent := Nat.mul_le_mul_right _ (by decide)
    _ ≤ shownEnd := shownEnd_between.1.le

/-- Only the four largest doubles of either sign are from `shownEnd` on. -/
theorem shownEnd_le_iff {x : Float} (finite : x.isFinite = true) :
    shownEnd * (parts x).den ≤ (parts x).num ↔ infinityBits - 4 ≤ x.toBits.toNat % signBit := by
  have notLast := (isFinite_iff x).1 finite
  simp only [parts, Parts.num, Parts.den]
  generalize x.toBits.toNat = bits at notLast
  have word :
      bits % signBit = bits / leadingBit % exponentCount * leadingBit + bits % leadingBit := by
    unfold signBit leadingBit exponentCount
    omega
  have below : bits % leadingBit < leadingBit := Nat.mod_lt _ (by decide)
  have range : bits / leadingBit % exponentCount < exponentCount := Nat.mod_lt _ (by decide)
  rw [word]
  generalize bits / leadingBit % exponentCount = field at notLast range
  generalize bits % leadingBit = fraction at below
  unfold lastExponent exponentCount leadingBit infinityBits at *
  rcases Nat.lt_or_ge field 2046 with less | most
  · refine iff_of_false (Nat.not_le.2 ?_) (by omega)
    have significand : (if field = 0 then fraction else 0x10000000000000 + fraction) < 2 ^ 53 := by
      split <;> omega
    have exponent : (if field = 0 then -1074 else (field : ℤ) - 1075).toNat < largestExponent := by
      unfold largestExponent
      split <;> omega
    exact (lt_shownEnd significand exponent).trans_le
      (Nat.le_mul_of_pos_right _ (Nat.pow_pos (by decide)))
  · obtain rfl : field = 2046 := by omega
    have exponent : ((2046 : Nat) : ℤ) - 1075 = largestExponent := rfl
    rw [if_neg (by decide), if_neg (by decide), exponent, Int.toNat_neg_natCast, Int.toNat_natCast,
      (rfl : Nat.pow 2 0 = 1), Nat.mul_one, shownEnd_le_mul_iff]
    omega

/-! ## Reading it back -/

/-- A finite number is always shown, and what is shown for it is read back as a finite number, both
typed into a cell and as a text where a number is due, for all but the four largest doubles of
either sign. Rounded to fifteen digits these are more than the largest double: what is shown for
them stays a text, which serves as no number. -/
theorem shown_number_reads_back {x : Float} (finite : x.isFinite = true) :
    ∃ s, (Value.number x).display = .ok s ∧
      (x.toBits.toNat % signBit < infinityBits - 4 → ∃ y : Float, y.isFinite = true ∧
        Value.ofLiteral? s = some (.number y) ∧ (Value.text s).toNumber = .ok y) ∧
      (infinityBits - 4 ≤ x.toBits.toNat % signBit →
        Value.ofLiteral? s = some (.text s) ∧
          (Value.text s).toNumber = .error (.notNumeric s)) := by
  obtain ⟨nan, inf⟩ := not_special_of_isFinite finite
  obtain ⟨negative, cs, d, text, spells, before⟩ := exists_spells_display (parts x)
  refine ⟨(parts x).display, Value.displayNumber_of_isFinite nan inf, ?_, ?_⟩
  · intro less
    have less := before.2 (Nat.lt_of_not_le (mt (shownEnd_le_iff finite).1 (Nat.not_le.2 less)))
    refine ⟨d.toFloat negative, (Decimal.isFinite_toFloat_iff spells.digits_lt _).2 less, ?_, ?_⟩
    · rw [text, spells.ofLiteral?_signed, if_pos less]
    · rw [text, spells.toNumber_signed, if_pos less]
  · intro least
    have past := mt before.1 (Nat.not_lt.2 ((shownEnd_le_iff finite).2 least))
    rw [text, spells.ofLiteral?_signed, spells.toNumber_signed, if_neg past, if_neg past]
    exact ⟨rfl, rfl⟩

/-- A fraction is read back, and what is shown for the negative of the largest double is a text. -/
theorem shown_number_reads_back_of_samples :
    (∃ s, (Value.number 0.1).display = .ok s ∧ ∃ y : Float, y.isFinite = true ∧
      Value.ofLiteral? s = some (.number y) ∧ (Value.text s).toNumber = .ok y) ∧
    ∃ s, (Value.number (ofSignBits true (infinityBits - 1))).display = .ok s ∧
      Value.ofLiteral? s = some (.text s) := by
  constructor
  · obtain ⟨s, shown, back, -⟩ := shown_number_reads_back (x := 0.1) (by decide +kernel)
    exact ⟨s, shown, back (by decide +kernel)⟩
  · obtain ⟨s, shown, -, past⟩ := shown_number_reads_back
      (x := ofSignBits true (infinityBits - 1)) (by decide +kernel)
    exact ⟨s, shown, (past (by decide +kernel)).1⟩

/-- The largest double is shown with fifteen digits, which are more than it and are read as no
number. -/
theorem largest_is_no_number_when_read_back :
    ¬ ∀ x : Float, x.isFinite = true → ∃ s, (Value.number x).display = .ok s ∧
      (∃ y, Value.ofLiteral? s = some (.number y)) ∧ ∃ y, (Value.text s).toNumber = .ok y := by
  intro all
  obtain ⟨s, shown, -, y, number⟩ := all (ofSignBits false (infinityBits - 1)) (by decide +kernel)
  have same : (Value.number (ofSignBits false (infinityBits - 1))).display =
      .ok (parts (ofSignBits false (infinityBits - 1))).display :=
    Value.displayNumber_of_isFinite (by decide +kernel) (by decide +kernel)
  have text : (parts (ofSignBits false (infinityBits - 1))).display = "1.79769313486232e+308" := by
    decide +kernel
  have refused : readFinite? (Text.strip "1.79769313486232e+308") = none :=
    Option.isNone_iff_eq_none.1 (by decide +kernel)
  rw [shown, text] at same
  rw [Except.ok.inj same, Value.toNumber, refused] at number
  cases number

end Worksheet.Number
