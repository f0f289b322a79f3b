-- Ratios of whole numbers, rounded and measured exactly. Doubles and their decimal texts are
-- both worked out on such ratios, so no step in between can round.

namespace Worksheet.Number

/-- The whole number nearest to `num / den`; a half goes to the even neighbour. -/
def roundDiv (num den : Nat) : Nat :=
  let q := num / den
  let r := num % den
  if 2 * r < den then q
  else if den < 2 * r then q + 1
  else q + q % 2

theorem roundDiv_of_dvd {num den : Nat} (hd : 0 < den) (h : num % den = 0) :
    roundDiv num den = num / den := by
  simp [roundDiv, h, hd]

/-- The rounded ratio is within one half of the ratio. -/
theorem roundDiv_within_half {num den : Nat} (hd : 0 < den) :
    2 * num ≤ 2 * (roundDiv num den * den) + den ∧
      2 * (roundDiv num den * den) ≤ 2 * num + den := by
  have e : den * (num / den) + num % den = num := Nat.div_add_mod num den
  have hr : num % den < den := Nat.mod_lt num hd
  unfold roundDiv
  simp only
  generalize num / den = q at e ⊢
  generalize num % den = r at e hr ⊢
  rw [Nat.mul_comm] at e
  split
  · omega
  split
  · rw [Nat.add_mul, Nat.one_mul]; omega
  · rcases Nat.mod_two_eq_zero_or_one q with h | h <;> rw [h]
    · rw [Nat.add_zero]; omega
    · rw [Nat.add_mul, Nat.one_mul]; omega

def digitCount (n : Nat) : Nat := (Nat.toDigits 10 n).length

/-- The `k` with `10 ^ k ≤ num / den < 10 ^ (k + 1)`, for positive `num` and `den`. -/
def decimalOrder (num den : Nat) : Int :=
  if den ≤ num then (digitCount (num / den) : Int) - 1
  else -(digitCount ((den - 1) / num) : Int)

/-- The `k` with `2 ^ k ≤ num / den < 2 ^ (k + 1)`, for positive `num` and `den`. -/
def binaryOrder (num den : Nat) : Int :=
  let k : Int := (num.log2 : Int) - den.log2
  if den * Nat.pow 2 k.toNat ≤ num * Nat.pow 2 (-k).toNat then k else k - 1

/-- `num / den` in units of `10 ^ k`, rounded. -/
def inTens (num den : Nat) (k : Int) : Nat :=
  roundDiv (num * Nat.pow 10 (-k).toNat) (den * Nat.pow 10 k.toNat)

example : roundDiv 5 2 = 2 ∧ roundDiv 7 2 = 4 ∧ roundDiv 8 3 = 3 := by decide
example : decimalOrder 999 1 = 2 ∧ decimalOrder 1 10 = -1 ∧ decimalOrder 1 11 = -2 := by
  decide +kernel
example : binaryOrder 7 1 = 2 ∧ binaryOrder 1 3 = -2 ∧ binaryOrder 1 4 = -2 := by decide +kernel

end Worksheet.Number
