-- Ratios as rational numbers: how they are rounded, and how many tens and twos they hold.
import Mathlib.Algebra.Order.Field.Power
import Mathlib.Algebra.Order.Field.Rat
import Mathlib.Tactic.FieldSimp
import Mathlib.Tactic.Linarith
import Mathlib.Tactic.NormNum
import Mathlib.Tactic.Positivity
import Worksheet.Number.Ratio

namespace Worksheet.Number

variable {num den : Nat}

theorem le_roundDiv {n : Nat} (hd : 0 < den) (h : (n : ℚ) ≤ num / den) : n ≤ roundDiv num den := by
  rw [le_div_iff₀ (by positivity)] at h
  have whole : n ≤ num / den := (Nat.le_div_iff_mul_le hd).2 (by exact_mod_cast h)
  unfold roundDiv
  dsimp only
  split <;> [exact whole; split] <;> omega

theorem roundDiv_le {n : Nat} (hd : 0 < den) (h : (num : ℚ) / den ≤ n) : roundDiv num den ≤ n := by
  rw [div_le_iff₀ (by positivity)] at h
  have h : num ≤ n * den := by exact_mod_cast h
  have near : 2 * (roundDiv num den * den) ≤ 2 * num + den := (roundDiv_within_half hd).2
  by_contra past
  have next : (n + 1) * den ≤ roundDiv num den * den :=
    Nat.mul_le_mul_right _ (Nat.lt_of_not_le past)
  rw [Nat.add_mul] at next
  omega

/-- What lies halfway past an odd number is rounded up, so only what lies before that is rounded to
the odd number or less. -/
theorem roundDiv_le_iff_of_odd {n : Nat} (hd : 0 < den) (odd : n % 2 = 1) :
    roundDiv num den ≤ n ↔ (num : ℚ) / den < n + 1 / 2 := by
  have eq : den * (num / den) + num % den = num := Nat.div_add_mod num den
  have below : num % den < den := Nat.mod_lt num hd
  have half : (num : ℚ) / den < n + 1 / 2 ↔ 2 * num < 2 * (den * n) + den := by
    rw [div_lt_iff₀ (by positivity), ← Nat.cast_lt (α := ℚ)]
    push_cast
    constructor <;> intro h <;> linarith
  rw [half]
  unfold roundDiv
  dsimp only
  generalize num / den = q at eq ⊢
  generalize num % den = r at eq below ⊢
  rcases Nat.lt_trichotomy q n with less | rfl | more
  · have := Nat.mul_le_mul_left den (Nat.succ_le_of_lt less)
    rw [Nat.mul_succ] at this
    refine iff_of_true ?_ (by omega)
    split <;> [skip; split] <;> omega
  · split <;> [skip; split] <;> omega
  · have := Nat.mul_le_mul_left den (Nat.succ_le_of_lt more)
    rw [Nat.mul_succ] at this
    refine iff_of_false ?_ (by omega)
    split <;> [skip; split] <;> omega

theorem zpow_eq_ratio (base : Nat) (k : ℤ) :
    (base : ℚ) ^ k = base ^ k.toNat / base ^ (-k).toNat := by
  rcases le_total 0 k with h | h
  · lift k to ℕ using h
    simp
  · obtain ⟨n, rfl⟩ : ∃ n : ℕ, k = -n := ⟨k.natAbs, by omega⟩
    simp

theorem scaled (base : Nat) (hb : 0 < base) (num den : Nat) (k : ℤ) :
    ((num * Nat.pow base (-k).toNat : Nat) : ℚ) / (den * Nat.pow base k.toNat : Nat) =
      (num : ℚ) / den / (base : ℚ) ^ k := by
  rw [zpow_eq_ratio, Nat.pow_eq, Nat.pow_eq]
  push_cast
  field_simp

theorem scaled_pos {base den : Nat} (hb : 0 < base) (hd : 0 < den) (k : Nat) :
    0 < den * Nat.pow base k :=
  Nat.mul_pos hd (Nat.pow_pos hb)

/-- `num / den` in units of `base ^ k`, rounded. -/
def inUnits (base num den : Nat) (k : ℤ) : Nat :=
  roundDiv (num * Nat.pow base (-k).toNat) (den * Nat.pow base k.toNat)

section inUnits

variable {base n : Nat} {k : ℤ} (hb : 0 < base) (hd : 0 < den)

include hb hd

theorem le_inUnits (h : (n : ℚ) * base ^ k ≤ num / den) : n ≤ inUnits base num den k := by
  refine le_roundDiv (scaled_pos hb hd _) ?_
  rwa [scaled base hb, le_div_iff₀ (by positivity)]

theorem inUnits_le (h : (num : ℚ) / den ≤ n * base ^ k) : inUnits base num den k ≤ n := by
  refine roundDiv_le (scaled_pos hb hd _) ?_
  rwa [scaled base hb, div_le_iff₀ (by positivity)]

theorem inUnits_le_iff_of_odd (odd : n % 2 = 1) :
    inUnits base num den k ≤ n ↔ (num : ℚ) / den < (n + 1 / 2) * base ^ k := by
  rw [inUnits, roundDiv_le_iff_of_odd (scaled_pos hb hd _) odd, scaled base hb,
    div_lt_iff₀ (by positivity)]

end inUnits

theorem lt_pow_digitCount (n : Nat) : n < 10 ^ digitCount n :=
  (Nat.length_toDigits_le_iff (by decide) Nat.length_toDigits_pos).1 (Nat.le_refl _)

theorem pow_digitCount_le {n : Nat} (h : 0 < n) : 10 ^ (digitCount n - 1) ≤ n := by
  rcases Nat.eq_zero_or_pos (digitCount n - 1) with one | more
  · rw [one]
    exact h
  · by_contra less
    have := (Nat.length_toDigits_le_iff (b := 10) (by decide) more).2 (Nat.lt_of_not_le less)
    unfold digitCount at *
    omega

/-- The power of ten at the front of a ratio. -/
theorem decimalOrder_spec (hn : 0 < num) (hd : 0 < den) :
    (10 : ℚ) ^ decimalOrder num den ≤ num / den ∧
      (num : ℚ) / den < 10 ^ (decimalOrder num den + 1) := by
  have positive : (0 : ℚ) < den := by positivity
  unfold decimalOrder
  split
  · rename_i whole
    have least := pow_digitCount_le (Nat.div_pos whole hd)
    have most := lt_pow_digitCount (num / den)
    obtain ⟨c, count⟩ : ∃ c, digitCount (num / den) = c + 1 :=
      Nat.exists_eq_add_one.2 Nat.length_toDigits_pos
    rw [count, Nat.add_sub_cancel, Nat.le_div_iff_mul_le hd] at least
    rw [count, Nat.div_lt_iff_lt_mul hd] at most
    rw [count, Nat.cast_add_one, add_sub_cancel_right, zpow_natCast,
      zpow_add_one₀ (by norm_num), zpow_natCast, le_div_iff₀ positive, div_lt_iff₀ positive,
      ← pow_succ]
    exact_mod_cast And.intro least most
  · rename_i part
    have least := pow_digitCount_le (Nat.div_pos (show num ≤ den - 1 by omega) hn)
    have most := lt_pow_digitCount ((den - 1) / num)
    obtain ⟨c, count⟩ : ∃ c, digitCount ((den - 1) / num) = c + 1 :=
      Nat.exists_eq_add_one.2 Nat.length_toDigits_pos
    rw [count, Nat.add_sub_cancel, Nat.le_div_iff_mul_le hn] at least
    rw [count, Nat.div_lt_iff_lt_mul hn] at most
    have least : 10 ^ c * num < den := by omega
    have most : den ≤ 10 ^ (c + 1) * num := by omega
    rw [count, Nat.cast_add_one, neg_add, neg_add_cancel_right, ← neg_add, zpow_neg, zpow_neg,
      zpow_add_one₀ (by norm_num), zpow_natCast, ← pow_succ, ← one_div, ← one_div,
      div_le_div_iff₀ (by positivity) positive, div_lt_div_iff₀ positive (by positivity), one_mul,
      mul_comm (num : ℚ), mul_comm (num : ℚ)]
    exact_mod_cast And.intro most least

/-- The power of two at the front of a ratio. -/
theorem binaryOrder_spec (hn : 0 < num) (hd : 0 < den) :
    (2 : ℚ) ^ binaryOrder num den ≤ num / den ∧
      (num : ℚ) / den < 2 ^ (binaryOrder num den + 1) := by
  have positive : (0 : ℚ) < den := by positivity
  have numLeast : (2 : ℚ) ^ num.log2 ≤ num := by exact_mod_cast Nat.log2_self_le hn.ne'
  have numMost : (num : ℚ) < 2 ^ (num.log2 + 1) := by exact_mod_cast Nat.lt_log2_self
  have denLeast : (2 : ℚ) ^ den.log2 ≤ den := by exact_mod_cast Nat.log2_self_le hd.ne'
  have denMost : (den : ℚ) < 2 ^ (den.log2 + 1) := by exact_mod_cast Nat.lt_log2_self
  unfold binaryOrder
  dsimp only
  generalize hk : (num.log2 : ℤ) - den.log2 = k
  have within : den * Nat.pow 2 k.toNat ≤ num * Nat.pow 2 (-k).toNat ↔ (2 : ℚ) ^ k ≤ num / den := by
    have ratio := zpow_eq_ratio 2 k
    rw [Nat.cast_ofNat] at ratio
    rw [ratio, div_le_div_iff₀ (by positivity) positive, mul_comm den, ← Nat.cast_le (α := ℚ)]
    simp
  split
  · rename_i reached
    refine ⟨within.1 reached, (div_lt_iff₀ positive).2 ?_⟩
    calc (num : ℚ) < 2 ^ (num.log2 + 1) := numMost
      _ = 2 ^ (k + 1) * 2 ^ den.log2 := by
        rw [← zpow_natCast, ← zpow_natCast, ← zpow_add₀ (by norm_num)]
        congr 1
        omega
      _ ≤ 2 ^ (k + 1) * den := mul_le_mul_of_nonneg_left denLeast (by positivity)
  · rename_i short
    rw [within, not_le] at short
    refine ⟨(le_div_iff₀ positive).2 ?_, by simpa using short⟩
    calc (2 : ℚ) ^ (k - 1) * den ≤ 2 ^ (k - 1) * 2 ^ (den.log2 + 1) :=
          mul_le_mul_of_nonneg_left denMost.le (by positivity)
      _ = 2 ^ num.log2 := by
        rw [← zpow_natCast, ← zpow_natCast, ← zpow_add₀ (by norm_num)]
        congr 1
        omega
      _ ≤ num := numLeast

end Worksheet.Number
