-- How the text of a decimal is read where cells take one: typed into a cell, and as a text where a
-- number is due. It is a number where the nearest double is finite.
import Worksheet.Value
import Worksheet.Proofs.Number.Texts
import Worksheet.Proofs.Text.Letters

namespace Worksheet.Number

open Worksheet.Formula Worksheet.Text

/-- The text of these characters with a minus sign in front or none. -/
def signed (negative : Bool) (cs : List Char) : String :=
  .ofList (if negative then '-' :: cs else cs)

namespace Spells

variable {cs : List Char} {d : Decimal} (h : Spells cs d) (negative : Bool)

include h

theorem chars : ∀ c ∈ (signed negative cs).toList,
    c.isDigit = true ∨ c ∈ ['.', 'e', 'E', '+', '-'] := by
  obtain ⟨whole, point, fraction, power, numeral⟩ := h.numeral
  intro c hc
  rw [signed, String.toList_ofList] at hc
  cases negative with
  | false => exact numeral.chars c hc
  | true =>
    rcases List.mem_cons.1 hc with rfl | hc
    · exact Or.inr (by decide)
    · exact numeral.chars c hc

theorem char_bounds {c : Char} (hc : c ∈ (signed negative cs).toList) :
    32 < c.toNat ∧ c.toNat < 127 := by
  rcases h.chars negative c hc with digit | other
  · simp only [Char.isDigit, Bool.and_eq_true, decide_eq_true_eq, UInt32.le_iff_toNat_le] at digit
    have least : 48 ≤ c.toNat := digit.1
    have most : c.toNat ≤ 57 := digit.2
    omega
  · simp only [List.mem_cons, List.not_mem_nil, or_false] at other
    rcases other with rfl | rfl | rfl | rfl | rfl <;> decide

theorem head :
    ∃ c r, (signed negative cs).toList = c :: r ∧ (c.isDigit = true ∨ c ∈ ['.', '-']) := by
  obtain ⟨whole, point, fraction, power, numeral⟩ := h.numeral
  rw [signed, String.toList_ofList]
  cases negative with
  | false =>
    obtain ⟨c, r, cons, first⟩ := numeral.head
    exact ⟨c, r, cons, first.imp_right (by rintro rfl; decide)⟩
  | true => exact ⟨'-', cs, rfl, Or.inr (by decide)⟩

theorem strip_signed : strip (signed negative cs) = signed negative cs := by
  have visible : ∀ c ∈ (signed negative cs).toList, isBlank c = false := by
    intro c hc
    obtain ⟨least, most⟩ := h.char_bounds negative hc
    simp [isBlank]
    omega
  rw [strip, trimBy_eq_self (fun c hc => visible c (List.mem_of_mem_head? hc))
    (fun c hc => visible c (List.mem_of_mem_getLast? hc)), String.ofList_toList]

theorem read?_signed : read? (signed negative cs) = some (d.toFloat negative) := by
  obtain ⟨whole, point, fraction, power, numeral⟩ := h.numeral
  have plain : ∀ c ∈ (signed negative cs).toList, plainChar c = c := fun c hc =>
    if_pos ((h.char_bounds negative hc).2.trans (by decide))
  have same := List.map_congr_left plain
  rw [List.map_id', signed, String.toList_ofList] at same
  rw [signed, numeral.read?_eq negative (by rw [String.toList_ofList, same]), h.decimal]
  rfl

theorem readFinite?_signed :
    readFinite? (signed negative cs) =
      if d.value < overflow then some (d.toFloat negative) else none := by
  rw [readFinite?, h.read?_signed, Option.filter_some]
  simp only [Decimal.isFinite_toFloat_iff h.digits_lt]

theorem booleanOf?_signed : Value.booleanOf? (signed negative cs) = none := by
  obtain ⟨c, r, cons, first⟩ := h.head negative
  have ascii : c.toNat < 128 :=
    (h.char_bounds negative (cons ▸ List.mem_cons_self ..)).2.trans (by decide)
  have start : c.toUpper.isDigit = true ∨ c.toUpper ∈ ['.', '-'] := by
    rw [isAsciiDigit_toUpper]
    refine first.imp_right fun other => ?_
    rcases List.mem_pair.1 other with rfl | rfl <;> decide
  have noWord : ∀ (d : Char) (w : List Char), ¬(d.isDigit = true ∨ d ∈ ['.', '-']) →
      upper (signed negative cs) ≠ .ofList (d :: w) := by
    intro d w letter same
    rw [upper, cons, List.flatMap_cons, upperChar_of_ascii ascii, List.singleton_append] at same
    exact letter ((List.cons.inj (String.ofList_injective same)).1 ▸ start)
  rw [Value.booleanOf?, if_neg (noWord 'T' _ (by decide)), if_neg (noWord 'F' _ (by decide))]

theorem unquoted?_signed : Value.unquoted? (signed negative cs) = none := by
  obtain ⟨c, r, cons, first⟩ := h.head negative
  rw [Value.unquoted?, cons]
  split
  · rename_i same
    cases same
    exact absurd first (by decide)
  · rfl

/-- A text typed into a cell is a number where it stands for a finite one, and stays a text
otherwise. -/
theorem ofLiteral?_signed :
    Value.ofLiteral? (signed negative cs) =
      some (if d.value < overflow then .number (d.toFloat negative)
        else .text (signed negative cs)) := by
  have filled : signed negative cs ≠ "" := by
    obtain ⟨c, r, cons, -⟩ := h.head negative
    intro empty
    rw [empty] at cons
    cases cons
  simp only [Value.ofLiteral?, h.strip_signed, if_neg filled, h.readFinite?_signed]
  by_cases finite : d.value < overflow
  · simp only [if_pos finite]
  · simp only [if_neg finite, h.booleanOf?_signed, h.unquoted?_signed, Option.getD_none]

theorem toNumber_signed :
    (Value.text (signed negative cs)).toNumber =
      if d.value < overflow then .ok (d.toFloat negative)
      else .error (.notNumeric (signed negative cs)) := by
  simp only [Value.toNumber, h.strip_signed, h.readFinite?_signed]
  by_cases finite : d.value < overflow
  · simp only [if_pos finite]
  · simp only [if_neg finite]

end Spells

theorem spells_toDigits (n : Nat) :
    Spells (Nat.toDigits 10 n) ⟨(Nat.toDigits 10 n).map digitOf, 0⟩ := by
  have numeral : IsNumeral Char.isDigit (Nat.toDigits 10 n) (Nat.toDigits 10 n) [] [] [] := {
    eq := by rw [List.nil_append, List.nil_append, List.append_nil]
    pointed := Or.inr ⟨rfl, rfl⟩
    nonempty := Or.inl Nat.toDigits_ne_nil
    all_whole := fun _ hd => isDigit_of_mem_toDigits hd
    all_fraction := fun _ hd => nomatch hd
    isPower := .absent }
  have spells := spells_of_numeral numeral (k := 0) rfl
  rwa [List.append_nil] at spells

theorem value_toDigits (n : Nat) : Decimal.value ⟨(Nat.toDigits 10 n).map digitOf, 0⟩ = n := by
  rw [Decimal.value, ofDigits_toDigits, zpow_zero, mul_one]

end Worksheet.Number
