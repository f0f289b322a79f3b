-- What is written for a number is read as the number that is written: the digits, the point and the
-- power of ten of a text stand for the decimal whose digits were laid out.
import Worksheet.Number.Layout
import Worksheet.Proofs.Formula.Numerals
import Worksheet.Proofs.Number.Range

namespace Worksheet.Number

open Worksheet.Formula Worksheet.Text

/-! ## Digits -/

theorem digitOf_lt {c : Char} (h : c.isDigit = true) : digitOf c < 10 := by
  simp only [Char.isDigit, Bool.and_eq_true, decide_eq_true_eq, UInt32.le_iff_toNat_le] at h
  have most : c.toNat ≤ 57 := h.2
  have zero : '0'.toNat = 48 := rfl
  unfold digitOf
  omega

theorem ofDigits_append (ds es : List Nat) :
    ofDigits (ds ++ es) = ofDigits ds * 10 ^ es.length + ofDigits es := by
  rw [ofDigits_eq, ofDigits_eq, ofDigits_eq, List.reverse_append, Nat.ofDigits_append,
    List.length_reverse]
  ring

theorem ofDigits_zeros (n : Nat) : ofDigits (List.replicate n 0) = 0 := by
  rw [ofDigits_eq, List.reverse_replicate, Nat.ofDigits_replicate_zero]

theorem map_digitOf_zeros (n : Nat) :
    (List.replicate n '0').map digitOf = List.replicate n 0 := List.map_replicate

theorem ofDigits_toDigits (n : Nat) : ofDigits ((Nat.toDigits 10 n).map digitOf) = n := by
  rw [ofDigits, List.foldl_map]
  exact Nat.ofDigitChars_ten_toDigits

theorem isDigit_of_mem_toDigits {n : Nat} {c : Char} (h : c ∈ Nat.toDigits 10 n) :
    c.isDigit = true := Nat.isDigit_of_mem_toDigits (by decide) (by decide) h

theorem isDigit_of_mem_zeros {n : Nat} {c : Char} (h : c ∈ List.replicate n '0') :
    c.isDigit = true := by
  rw [List.eq_of_mem_replicate h]
  rfl

/-- Only zeros at the end are left out of the significant digits. -/
theorem exists_zeros (ds : List Char) :
    ∃ z, ds = significant ds ++ List.replicate z '0' := by
  cases ds with
  | nil => exact ⟨0, rfl⟩
  | cons c r =>
    refine ⟨(r.reverse.takeWhile (· == '0')).length, ?_⟩
    have zeros : r.reverse.takeWhile (· == '0') =
        List.replicate (r.reverse.takeWhile (· == '0')).length '0' :=
      List.eq_replicate_of_mem fun d hd => by simpa using all_takeWhile _ _ d hd
    have whole := congrArg List.reverse
      (List.takeWhile_append_dropWhile (p := (· == '0')) (l := r.reverse))
    rw [List.reverse_append, List.reverse_reverse, zeros, List.reverse_replicate] at whole
    rw [significant, List.cons_append, whole]

theorem significant_ne_nil {ds : List Char} (h : ds ≠ []) : significant ds ≠ [] := by
  cases ds with
  | nil => exact absurd rfl h
  | cons c r => exact List.cons_ne_nil _ _

/-! ## Characters of a decimal -/

/-- The characters of a number without a sign stand for a decimal. -/
structure Spells (cs : List Char) (d : Decimal) : Prop where
  numeral : ∃ whole point fraction power, IsNumeral Char.isDigit cs whole point fraction power
  decimal : decimal? cs = some d

theorem spells_of_numeral {cs whole point fraction power : List Char} {k : Int}
    (h : IsNumeral Char.isDigit cs whole point fraction power) (hk : endPower? power = some k) :
    Spells cs ⟨(whole ++ fraction).map digitOf, k - fraction.length⟩ :=
  ⟨⟨_, _, _, _, h⟩, by rw [h.decimal?_eq, hk]; rfl⟩

theorem Spells.digits_lt {cs : List Char} {d : Decimal} (h : Spells cs d) :
    ∀ n ∈ d.digits, n < 10 := by
  obtain ⟨whole, point, fraction, power, numeral⟩ := h.numeral
  have decimal := h.decimal
  rw [numeral.decimal?_eq, Option.map_eq_some_iff] at decimal
  obtain ⟨k, -, rfl⟩ := decimal
  intro n hn
  obtain ⟨c, hc, rfl⟩ := List.mem_map.1 hn
  exact digitOf_lt ((List.mem_append.1 hc).elim (numeral.all_whole c) (numeral.all_fraction c))

/-! ## A power of ten -/

theorem powerText_eq (k : Int) :
    ∃ digits, powerText k = 'e' :: ((if k < 0 then ['-'] else ['+']) ++ digits) ∧ digits ≠ [] ∧
      (∀ d ∈ digits, d.isDigit = true) ∧ ofDigits (digits.map digitOf) = k.natAbs := by
  refine ⟨List.replicate (2 - (Nat.toDigits 10 k.natAbs).length) '0' ++ Nat.toDigits 10 k.natAbs,
    ?_, ?_, ?_, ?_⟩
  · unfold powerText
    split <;> rfl
  · exact List.append_ne_nil_of_right_ne_nil _ Nat.toDigits_ne_nil
  · intro d hd
    exact (List.mem_append.1 hd).elim isDigit_of_mem_zeros isDigit_of_mem_toDigits
  · rw [List.map_append, ofDigits_append, map_digitOf_zeros, ofDigits_zeros, Nat.zero_mul,
      Nat.zero_add, ofDigits_toDigits]

theorem isPower_powerText (k : Int) : IsPower Char.isDigit (powerText k) := by
  obtain ⟨digits, eq, filled, all, -⟩ := powerText_eq k
  rw [eq]
  refine .present (Or.inl rfl) ?_ filled all
  split
  · exact Or.inr (Or.inr rfl)
  · exact Or.inr (Or.inl rfl)

theorem endPower?_powerText (k : Int) : endPower? (powerText k) = some k := by
  obtain ⟨digits, eq, filled, all, value⟩ := powerText_eq k
  have digital : (digits.isEmpty || !digits.all Char.isDigit) = false := by
    simp only [Bool.or_eq_false_iff, List.isEmpty_eq_false_iff, Bool.not_eq_false',
      List.all_eq_true]
    exact ⟨filled, all⟩
  rw [eq, endPower?]
  split
  · have split : splitSign (['-'] ++ digits) = (true, digits) := rfl
    simp only [power?, split, digital, value, Bool.false_eq_true, if_false, if_true,
      Option.some.injEq]
    omega
  · have split : splitSign (['+'] ++ digits) = (false, digits) := rfl
    simp only [power?, split, digital, value, Bool.false_eq_true, if_false, Option.some.injEq]
    omega

/-! ## Layouts -/

/-- The number of significant digits, with the first of them at a power of ten. -/
def laidOut (ds : List Char) (k : Int) : ℚ := ofDigits (ds.map digitOf) * 10 ^ (k + 1 - ds.length)

theorem laidOut_append_zeros (ds : List Char) (n : Nat) (k : Int) :
    laidOut (ds ++ List.replicate n '0') k = laidOut ds k := by
  rw [laidOut, laidOut, List.map_append, ofDigits_append, map_digitOf_zeros, ofDigits_zeros,
    List.length_append, List.length_replicate, List.length_replicate]
  push_cast
  rw [add_zero, mul_assoc, ← zpow_natCast, ← zpow_add₀ (by norm_num)]
  congr 2
  ring

theorem laidOut_zeros_append (ds : List Char) (n : Nat) (k : Int) :
    laidOut (List.replicate n '0' ++ ds) k = laidOut ds (k - n) := by
  rw [laidOut, laidOut, List.map_append, ofDigits_append, map_digitOf_zeros, ofDigits_zeros,
    List.length_append, List.length_replicate]
  push_cast
  rw [zero_mul, zero_add]
  congr 2
  ring

theorem laidOut_significant (ds : List Char) (k : Int) :
    laidOut (significant ds) k = laidOut ds k := by
  obtain ⟨z, zeros⟩ := exists_zeros ds
  generalize significant ds = sig at zeros
  rw [zeros, laidOut_append_zeros]

/-- Characters that stand for a number. -/
def Shows (cs : List Char) (v : ℚ) : Prop := ∃ d, Spells cs d ∧ d.value = v

theorem shows_of_point (whole fraction : List Char) {power : List Char} {k : Int}
    (filled : whole ++ fraction ≠ []) (digital : ∀ c ∈ whole ++ fraction, c.isDigit = true)
    (isPower : IsPower Char.isDigit power)
    (hk : endPower? power = some (k + 1 - whole.length)) :
    Shows (whole ++ '.' :: (fraction ++ power)) (laidOut (whole ++ fraction) k) := by
  have numeral : IsNumeral Char.isDigit (whole ++ '.' :: (fraction ++ power)) whole ['.'] fraction
      power := {
    eq := rfl
    pointed := Or.inl rfl
    nonempty := by simpa [← not_and_or] using filled
    all_whole := fun d hd => digital d (List.mem_append_left _ hd)
    all_fraction := fun d hd => digital d (List.mem_append_right _ hd)
    isPower := isPower }
  refine ⟨_, spells_of_numeral numeral hk, ?_⟩
  rw [Decimal.value, laidOut, List.length_append]
  congr 2
  push_cast
  ring

theorem shows_of_no_point (whole : List Char) {power : List Char} {k : Int}
    (filled : whole ≠ []) (digital : ∀ c ∈ whole, c.isDigit = true)
    (isPower : IsPower Char.isDigit power)
    (hk : endPower? power = some (k + 1 - whole.length)) :
    Shows (whole ++ power) (laidOut whole k) := by
  have numeral : IsNumeral Char.isDigit (whole ++ power) whole [] [] power := {
    eq := rfl
    pointed := Or.inr ⟨rfl, rfl⟩
    nonempty := Or.inl filled
    all_whole := digital
    all_fraction := fun d hd => nomatch hd
    isPower := isPower }
  refine ⟨_, spells_of_numeral numeral hk, ?_⟩
  rw [Decimal.value, laidOut, List.append_nil, List.length_nil, Nat.cast_zero, sub_zero]

/-- Digits written out in full, with zeros up to the point where they do not reach it. -/
theorem shows_withPoint (style : Style) (whole : Nat) {ds : List Char} (filled : ds ≠ [])
    (digital : ∀ c ∈ ds, c.isDigit = true) :
    Shows (withPoint style (whole + 1) ds) (laidOut ds whole) := by
  unfold withPoint
  dsimp only
  split
  · rename_i short
    have short := List.drop_eq_nil_iff.1 short
    rw [List.take_of_length_le short]
    generalize hfront : ds ++ List.replicate (whole + 1 - ds.length) '0' = front
    have length : front.length = whole + 1 := by
      rw [← hfront, List.length_append, List.length_replicate]
      omega
    have power : endPower? [] = some ((whole : ℤ) + 1 - front.length) :=
      congrArg some (by omega)
    have digital : ∀ c ∈ front, c.isDigit = true := by
      rw [← hfront]
      exact fun c hc => (List.mem_append.1 hc).elim (digital c) isDigit_of_mem_zeros
    have filled : front ≠ [] := List.ne_nil_of_length_eq_add_one length
    rw [← laidOut_append_zeros ds (whole + 1 - ds.length), hfront]
    split
    · rw [← laidOut_append_zeros front 1]
      exact shows_of_point front (List.replicate 1 '0') (List.append_ne_nil_of_left_ne_nil filled _)
        (fun c hc => (List.mem_append.1 hc).elim (digital c) isDigit_of_mem_zeros) .absent power
    · have shows := shows_of_no_point front filled digital .absent power
      rwa [List.append_nil] at shows
  · rename_i long
    have long : whole + 1 < ds.length := by
      by_contra short
      exact long (List.drop_eq_nil_iff.2 (Nat.le_of_not_lt short))
    have length := List.length_take_of_le long.le
    have shows := shows_of_point (ds.take (whole + 1)) (ds.drop (whole + 1)) (k := whole)
      (by rwa [List.take_append_drop]) (by rwa [List.take_append_drop]) .absent
      (congrArg some (by omega))
    rw [List.take_append_drop, List.append_nil] at shows
    rw [Nat.sub_eq_zero_of_le long.le, List.replicate_zero, List.append_nil]
    exact shows

theorem shows_behind_point {ds : List Char} (digital : ∀ c ∈ ds, c.isDigit = true) {k : Int}
    (small : k < 0) :
    Shows (['0', '.'] ++ List.replicate (-k - 1).toNat '0' ++ ds) (laidOut ds k) := by
  have zeros : ∀ c ∈ List.replicate 1 '0' ++ (List.replicate (-k - 1).toNat '0' ++ ds),
      c.isDigit = true := by
    intro c hc
    simp only [List.mem_append] at hc
    rcases hc with hc | hc | hc
    · exact isDigit_of_mem_zeros hc
    · exact isDigit_of_mem_zeros hc
    · exact digital c hc
  have shows := shows_of_point (List.replicate 1 '0') (List.replicate (-k - 1).toNat '0' ++ ds)
    (k := 0) (by simp) zeros .absent rfl
  have power : (0 : ℤ) - (1 : Nat) - (-k - 1).toNat = k := by omega
  rw [laidOut_zeros_append, laidOut_zeros_append, power, List.append_nil] at shows
  exact shows

theorem shows_with_power {ds : List Char} (filled : ds ≠ []) (digital : ∀ c ∈ ds, c.isDigit = true)
    (k : Int) : Shows (ds.take 1 ++ '.' :: ds.drop 1 ++ powerText k) (laidOut ds k) := by
  have first : (ds.take 1).length = 1 := List.length_take_of_le (List.length_pos_of_ne_nil filled)
  have shows := shows_of_point (ds.take 1) (ds.drop 1) (k := k) (by rwa [List.take_append_drop])
    (by rwa [List.take_append_drop]) (isPower_powerText k)
    ((endPower?_powerText k).trans (congrArg some (by omega)))
  rw [List.take_append_drop] at shows
  rw [List.append_assoc, List.cons_append]
  exact shows

/-- A layout is a minus sign or none before the characters of the number that is laid out. -/
theorem shows_layout (style : Style) (negative : Bool) {ds : List Char} (filled : ds ≠ [])
    (digital : ∀ c ∈ ds, c.isDigit = true) (k : Int) :
    ∃ cs, layout style negative ds k = .ofList (if negative then '-' :: cs else cs) ∧
      Shows cs (laidOut ds k) := by
  refine ⟨_, rfl, ?_⟩
  have filled := significant_ne_nil filled
  have digital : ∀ c ∈ significant ds, c.isDigit = true := by
    obtain ⟨z, zeros⟩ := exists_zeros ds
    rw [zeros] at digital
    exact fun c hc => digital c (List.mem_append_left _ hc)
  rw [← laidOut_significant]
  generalize significant ds = sig at filled digital
  split
  · split
    · rename_i front
      lift k to ℕ using front
      exact shows_withPoint style k filled digital
    · rename_i behind
      exact shows_behind_point digital (by omega)
  · split
    · rename_i d
      exact shows_of_no_point [d] filled digital (isPower_powerText k)
        ((endPower?_powerText k).trans (congrArg some (by simp)))
    · exact shows_with_power filled digital k

end Worksheet.Number
