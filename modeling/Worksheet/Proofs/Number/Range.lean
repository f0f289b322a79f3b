-- Which numbers are finite as doubles: those before the point halfway from the largest double to
-- the power of two after it.
import Mathlib.Data.Nat.Digits.Lemmas
import Worksheet.Number.Numeral
import Worksheet.Proofs.Number.Bits
import Worksheet.Proofs.Number.Ratios

namespace Worksheet.Number

/-- Halfway from the largest double to the power of two after it. -/
def overflow : ℚ := ((2 ^ 53 - 1 : Nat) + 1 / 2) * 2 ^ (971 : ℤ)

theorem two_zpow (k n : ℤ) (h : k = n + 971) : (2 : ℚ) ^ k = 2 ^ n * 2 ^ (971 : ℤ) := by
  rw [h, zpow_add₀ two_ne_zero]

theorem pow_lt_overflow : (2 : ℚ) ^ (1023 : ℤ) < overflow := by
  rw [two_zpow 1023 52 (by decide), overflow]
  exact mul_lt_mul_of_pos_right (by norm_num) (by positivity)

theorem overflow_lt_pow : overflow < (2 : ℚ) ^ (1024 : ℤ) := by
  rw [two_zpow 1024 53 (by decide), overflow]
  exact mul_lt_mul_of_pos_right (by norm_num) (by positivity)

theorem overflow_eq_nat : overflow = ((2 ^ 54 - 1) * 2 ^ 970 : Nat) := by
  have twice : (2 : ℚ) ^ (971 : ℤ) = 2 * (2 ^ 970 : Nat) := by
    rw [Nat.cast_pow, Nat.cast_two, ← zpow_natCast, ← zpow_one_add₀ two_ne_zero]
    rfl
  rw [overflow, twice]
  generalize 2 ^ 970 = p
  push_cast
  ring

theorem cast_lt_overflow {n : Nat} (h : n < (2 ^ 54 - 1) * 2 ^ 970) : (n : ℚ) < overflow := by
  rw [overflow_eq_nat]
  exact_mod_cast h

theorem cast_lt_overflow_of_lt_pow {n : Nat} (h : n < 2 ^ 53) : (n : ℚ) < overflow := by
  calc (n : ℚ) < 2 ^ 53 := by exact_mod_cast h
    _ = 2 ^ (53 : ℤ) := rfl
    _ ≤ 2 ^ (1023 : ℤ) := zpow_le_zpow_right₀ one_le_two (by decide)
    _ < overflow := pow_lt_overflow

theorem overflow_le_cast {n : Nat} (h : (2 ^ 54 - 1) * 2 ^ 970 ≤ n) : overflow ≤ n := by
  rw [overflow_eq_nat]
  exact_mod_cast h

/-- A ratio has a finite nearest double when it comes before the overflow. -/
theorem nearestBits_lt_infinity_iff {num den : Nat} (hd : 0 < den) :
    nearestBits num den < infinityBits ↔ (num : ℚ) / den < overflow := by
  have leadingBit_eq : leadingBit = 2 ^ 52 := rfl
  have infinityBits_eq : infinityBits = 2047 * 2 ^ 52 := rfl
  unfold nearestBits
  split
  · rename_i zero
    rw [zero, Nat.cast_zero, zero_div]
    exact iff_of_true (by decide) (lt_trans (by positivity) pow_lt_overflow)
  rename_i some
  obtain ⟨least, most⟩ := binaryOrder_spec (Nat.pos_of_ne_zero some) hd
  generalize binaryOrder num den = k at least most
  dsimp only
  generalize hq : max (k - 52) (-1074) = q
  change min (_ + inUnits 2 num den q) _ < _ ↔ _
  rw [min_lt_iff, or_iff_left (lt_irrefl _), leadingBit_eq, infinityBits_eq]
  rcases lt_trichotomy k 1023 with less | rfl | more
  · -- A significand that is rounded up to the next power of two still has a finite exponent.
    have significand : inUnits 2 num den q ≤ 2 ^ 53 := by
      refine inUnits_le (by decide) hd ?_
      calc (num : ℚ) / den ≤ 2 ^ (k + 1) := most.le
        _ ≤ 2 ^ (53 + q) := zpow_le_zpow_right₀ one_le_two (by omega)
        _ = (2 ^ 53 : Nat) * (2 : Nat) ^ q := by rw [zpow_add₀ two_ne_zero]; norm_cast
    refine iff_of_true (by omega) ?_
    calc (num : ℚ) / den < 2 ^ (k + 1) := most
      _ ≤ 2 ^ (1023 : ℤ) := zpow_le_zpow_right₀ one_le_two (by omega)
      _ < overflow := pow_lt_overflow
  · -- With the largest exponent, the rounding of the significand decides.
    obtain rfl : 971 = q := hq
    have odd : inUnits 2 num den 971 ≤ 2 ^ 53 - 1 ↔ _ :=
      inUnits_le_iff_of_odd (by decide) hd (by decide)
    rw [Nat.cast_two, ← overflow] at odd
    rw [← odd]
    omega
  · have significand : 2 ^ 52 ≤ inUnits 2 num den q := by
      refine le_inUnits (by decide) hd ?_
      calc ((2 ^ 52 : Nat) : ℚ) * (2 : Nat) ^ q = 2 ^ (52 + q) := by
            rw [zpow_add₀ two_ne_zero]; norm_cast
        _ ≤ 2 ^ k := zpow_le_zpow_right₀ one_le_two (by omega)
        _ ≤ num / den := least
    refine iff_of_false (by omega) (not_lt.2 ?_)
    calc overflow ≤ 2 ^ (1024 : ℤ) := overflow_lt_pow.le
      _ ≤ 2 ^ k := zpow_le_zpow_right₀ one_le_two (by omega)
      _ ≤ num / den := least

theorem isFinite_nearest_iff {num den : Nat} (hd : 0 < den) (negative : Bool) :
    (nearest negative num den).isFinite = true ↔ (num : ℚ) / den < overflow := by
  rw [nearest, isFinite_ofSignBits (nearestBits_le_infinity num den),
    nearestBits_lt_infinity_iff hd]

theorem ofDigits_eq (ds : List Nat) : ofDigits ds = Nat.ofDigits 10 ds.reverse := by
  rw [Nat.ofDigits_eq_foldr, List.foldr_reverse, ofDigits]
  congr 1
  funext n d
  exact Nat.add_comm _ _

theorem ofDigits_dropWhile (ds : List Nat) : ofDigits (ds.dropWhile (· == 0)) = ofDigits ds := by
  induction ds with
  | nil => rfl
  | cons d ds ih =>
    by_cases zero : d = 0
    · rw [zero, List.dropWhile_cons_of_pos rfl, ih]
      rfl
    · rw [List.dropWhile_cons_of_neg (by simpa using zero)]

theorem ofDigits_lt {ds : List Nat} (h : ∀ d ∈ ds, d < 10) : ofDigits ds < 10 ^ ds.length := by
  rw [ofDigits_eq, ← List.length_reverse]
  exact Nat.ofDigits_lt_base_pow_length (by decide) fun d hd => h d (List.mem_reverse.1 hd)

theorem le_ofDigits {d : Nat} (ds : List Nat) (h : d ≠ 0) :
    10 ^ ds.length ≤ ofDigits (d :: ds) := by
  have bound := Nat.pow_length_le_mul_ofDigits (b := 8) (l := (d :: ds).reverse) (by simp)
    (by simpa using h)
  rw [← ofDigits_eq, List.length_reverse, List.length_cons, pow_succ, mul_comm] at bound
  exact Nat.le_of_mul_le_mul_left bound (by decide)

/-- The number that a decimal is. -/
def Decimal.value (d : Decimal) : ℚ := ofDigits d.digits * 10 ^ d.exponent

/-- A decimal with a first digit that is no zero lies between two powers of ten. -/
theorem bounds_of_first {n : Nat} {r : List Nat} (first : n ≠ 0) (digital : ∀ d ∈ n :: r, d < 10)
    (k : ℤ) :
    (10 : ℚ) ^ (r.length + k) ≤ ofDigits (n :: r) * 10 ^ k ∧
      (ofDigits (n :: r) : ℚ) * 10 ^ k < 10 ^ (r.length + 1 + k) := by
  have least : ((10 ^ r.length : Nat) : ℚ) ≤ ofDigits (n :: r) := by
    exact_mod_cast le_ofDigits r first
  have most : (ofDigits (n :: r) : ℚ) < (10 ^ (r.length + 1) : Nat) := by
    exact_mod_cast ofDigits_lt digital
  rw [zpow_add₀ (by norm_num), zpow_add₀ (by norm_num), ← Nat.cast_add_one, zpow_natCast,
    zpow_natCast]
  push_cast at least most
  exact ⟨mul_le_mul_of_nonneg_right least (by positivity),
    mul_lt_mul_of_pos_right most (by positivity)⟩

/-- A decimal has a finite nearest double when it comes before the overflow. -/
theorem Decimal.isFinite_toFloat_iff {d : Decimal} (digital : ∀ n ∈ d.digits, n < 10)
    (negative : Bool) : (d.toFloat negative).isFinite = true ↔ d.value < overflow := by
  have zero : (ofSignBits negative 0).isFinite = true :=
    (isFinite_ofSignBits (Nat.zero_le _)).2 (by decide)
  have positive : 0 < overflow := by
    unfold overflow
    positivity
  unfold Decimal.toFloat Decimal.value
  rw [← ofDigits_dropWhile]
  dsimp only
  cases hds : d.digits.dropWhile (· == 0) with
  | nil =>
    refine iff_of_true zero ?_
    rwa [ofDigits, List.foldl_nil, Nat.cast_zero, zero_mul]
  | cons n r =>
    have first : n ≠ 0 := by
      have := List.head?_dropWhile_not (· == 0) d.digits
      rw [hds] at this
      simpa using this
    have digital : ∀ m ∈ n :: r, m < 10 := fun m hm =>
      digital m ((List.dropWhile_sublist _).subset (hds ▸ hm))
    obtain ⟨least, most⟩ := bounds_of_first first digital d.exponent
    simp only [List.isEmpty_cons, Bool.false_or, decide_eq_true_eq, List.length_cons,
      Nat.cast_add_one]
    split
    · rename_i small
      refine iff_of_true zero (most.trans_le (le_trans ?_ pow_lt_overflow.le))
      calc (10 : ℚ) ^ (r.length + 1 + d.exponent)
          ≤ 1 := zpow_le_one_of_nonpos₀ (by norm_num) (by omega)
        _ ≤ 2 ^ (1023 : ℤ) := one_le_zpow₀ one_le_two (by decide)
    split
    · rename_i large
      refine iff_of_false ?_ (not_lt.2 (overflow_lt_pow.le.trans (le_trans ?_ least)))
      · exact mt (isFinite_ofSignBits (Nat.le_refl _)).1 (Nat.lt_irrefl _)
      · calc (2 : ℚ) ^ (1024 : ℤ) ≤ 10 ^ (310 : ℤ) := by
              have : 2 ^ 1024 ≤ 10 ^ 310 := by decide +kernel
              exact_mod_cast this
          _ ≤ 10 ^ (r.length + d.exponent) := zpow_le_zpow_right₀ (by norm_num) (by omega)
    · have ratio := zpow_eq_ratio 10 d.exponent
      rw [Nat.pow_eq, Nat.pow_eq, isFinite_nearest_iff (Nat.pow_pos (by decide)), Nat.cast_mul,
        Nat.cast_pow, Nat.cast_pow, mul_div_assoc, ← ratio, Nat.cast_ofNat]

end Worksheet.Number
