-- Formulas that are one reference: letters and then digits, which name the same position in letters
-- of either case.
import Worksheet.Proofs.Formula.Grammar
import Worksheet.Proofs.Formula.Scanning
import Worksheet.Proofs.Text.Letters

namespace Worksheet

open Worksheet.Formula
open Worksheet.Text

/-- A reference: letters of ASCII, and then digits. -/
structure IsReference (reference : String) (letters digits : List Char) : Prop where
  chars : reference.toList = letters ++ digits
  lettered : letters ≠ []
  alphabetic : ∀ c ∈ letters, c.isAlpha = true
  numbered : digits ≠ []
  numeric : ∀ c ∈ digits, c.isDigit = true

instance (reference : String) (letters digits : List Char) :
    Decidable (IsReference reference letters digits) :=
  decidable_of_iff
    ((reference.toList = letters ++ digits ∧ letters ≠ [] ∧ letters.all Char.isAlpha = true) ∧
      digits ≠ [] ∧ digits.all Char.isDigit = true)
    ⟨fun ⟨⟨chars, lettered, letter⟩, numbered, digit⟩ =>
      ⟨chars, lettered, List.all_eq_true.1 letter, numbered, List.all_eq_true.1 digit⟩,
    fun h => ⟨⟨h.chars, h.lettered, List.all_eq_true.2 h.alphabetic⟩, h.numbered,
      List.all_eq_true.2 h.numeric⟩⟩

theorem lt_of_isAlpha {c : Char} (h : c.isAlpha = true) : c.toNat < 128 := by
  have either : c.isUpper = true ∨ c.isLower = true := Bool.or_eq_true_iff.1 h
  rcases either with upper | lower
  · have most : c.toNat ≤ 90 := (of_decide_eq_true upper).2
    omega
  · have most : c.toNat ≤ 122 := of_decide_eq_true (Bool.and_eq_true_iff.1 lower).2
    omega

theorem lt_of_isDigit {c : Char} (h : c.isDigit = true) : c.toNat < 128 := by
  have most : c.toNat ≤ 57 := of_decide_eq_true (Bool.and_eq_true_iff.1 h).2
  omega

/-- What holds of each of the first characters holds of every one below 128. -/
theorem forall_ascii {P : Char → Prop} (each : ∀ n < 128, P (Char.ofNat n)) {c : Char}
    (ascii : c.toNat < 128) : P c := by
  rw [← Char.ofNat_toNat c]
  exact each c.toNat ascii

/-- No other lexeme than a name starts with a letter. -/
theorem starts_name {c : Char} (h : c.isAlpha = true) :
    isBlank c = false ∧ isDigit c = false ∧ c ≠ '.' ∧ c ≠ '"' ∧ isNameStart c = true := by
  refine forall_ascii (P := fun c => c.isAlpha = true → isBlank c = false ∧ isDigit c = false ∧
    c ≠ '.' ∧ c ≠ '"' ∧ isNameStart c = true) ?_ (lt_of_isAlpha h) h
  decide +kernel

theorem digit_spec {c : Char} (h : c.isDigit = true) :
    isBlank c = false ∧ c.isAlpha = false ∧ c.toUpper = c ∧ isNameChar c = true := by
  refine forall_ascii (P := fun c => c.isDigit = true → isBlank c = false ∧ c.isAlpha = false ∧
    c.toUpper = c ∧ isNameChar c = true) ?_ (lt_of_isDigit h) h
  decide +kernel

namespace IsReference

variable {reference : String} {letters digits : List Char}

theorem head_digits (h : IsReference reference letters digits) :
    ∃ c r, digits = c :: r ∧ c.isDigit = true := by
  obtain ⟨c, r, rfl⟩ := List.exists_cons_of_ne_nil h.numbered
  exact ⟨c, r, rfl, h.numeric c (List.mem_cons_self ..)⟩

theorem splitKey?_eq (h : IsReference reference letters digits) :
    splitKey? reference.toList = some (letters, digits) := by
  obtain ⟨c, r, rfl, digit⟩ := h.head_digits
  have front : (letters ++ c :: r).takeWhile Char.isAlpha = letters := by
    rw [List.takeWhile_append_of_pos h.alphabetic]
    simp [(digit_spec digit).2.1]
  have back : (letters ++ c :: r).dropWhile Char.isAlpha = c :: r := by
    rw [List.dropWhile_append_of_pos h.alphabetic]
    simp [(digit_spec digit).2.1]
  have nothing : ∀ d, ([] : List Char).head? = some d → d.isDigit = false := nofun
  obtain ⟨all, none⟩ := span_digits h.numeric nothing
  rw [List.append_nil] at all none
  unfold splitKey?
  simp only [h.chars, front, back, all, none]
  exact if_pos ⟨h.lettered, h.numbered, Or.inl trivial⟩

theorem isCellKey_eq (h : IsReference reference letters digits) : isCellKey reference = true := by
  rw [isCellKey, h.splitKey?_eq]
  rfl

theorem mem_cases (h : IsReference reference letters digits) {c : Char}
    (member : c ∈ reference.toList) : c.isAlpha = true ∨ c.isDigit = true := by
  rw [h.chars] at member
  exact (List.mem_append.1 member).imp (h.alphabetic c) (h.numeric c)

theorem strip_eq (h : IsReference reference letters digits) : strip reference = reference := by
  have plain : ∀ c ∈ reference.toList, isBlank c = false := fun c member =>
    (h.mem_cases member).elim (fun letter => (starts_name letter).1)
      fun digit => (digit_spec digit).1
  unfold strip
  rw [trimBy_eq_self, String.ofList_toList]
  · exact fun c head => plain c (List.mem_of_mem_head? head)
  · exact fun c last => plain c (List.mem_of_getLast? last)

theorem toList_upper (h : IsReference reference letters digits) :
    (upper reference).toList = letters.map Char.toUpper ++ digits := by
  have each : ∀ c ∈ reference.toList, upperChar c = [c.toUpper] := fun c member =>
    upperChar_of_ascii ((h.mem_cases member).elim lt_of_isAlpha lt_of_isDigit)
  have same : digits.map Char.toUpper = digits := by
    refine (List.map_congr_left fun c member => ?_).trans (List.map_id digits)
    exact (digit_spec (h.numeric c member)).2.2.1
  have single : reference.toList.flatMap upperChar = reference.toList.map Char.toUpper := by
    rw [List.flatMap_congr each, ← List.map_eq_flatMap]
  rw [upper, String.toList_ofList, single, h.chars, List.map_append, same]

theorem large (h : IsReference reference letters digits) :
    IsReference (upper reference) (letters.map Char.toUpper) digits where
  chars := h.toList_upper
  lettered := by simpa using h.lettered
  alphabetic c member := by
    obtain ⟨d, letter, rfl⟩ := List.mem_map.1 member
    rw [isAlpha_toUpper]
    exact h.alphabetic d letter
  numbered := h.numbered
  numeric := h.numeric

theorem ofKey_upper (h : IsReference reference letters digits) :
    Position.ofKey (upper reference) = Position.ofKey reference := by
  have twice : ∀ c : Char, c.toUpper.toUpper = c.toUpper := toUpper_congr (by decide)
  have column : upper (.ofList (letters.map Char.toUpper)) = upper (.ofList letters) := by
    refine SameLetters.upper_eq ?_
    simp [SameLetters, twice]
  unfold Position.ofKey
  rw [h.strip_eq, h.large.strip_eq, h.splitKey?_eq, h.large.splitKey?_eq]
  simp only [column]

theorem not_isTruthWord (h : IsReference reference letters digits) : ¬ IsTruthWord reference := by
  obtain ⟨c, r, rfl, digit⟩ := h.head_digits
  have member : c ∈ (upper reference).toList := by
    rw [h.toList_upper]
    simp
  rintro (same | same) <;> rw [same] at member
  · have none : "TRUE".toList.any Char.isDigit = false := by decide
    exact List.any_eq_false.1 none c member digit
  · have none : "FALSE".toList.any Char.isDigit = false := by decide
    exact List.any_eq_false.1 none c member digit

theorem lexeme?_eq (h : IsReference reference letters digits) :
    lexeme? reference.toList = some ⟨some .name, reference.toList.length⟩ := by
  rcases chars : reference.toList with _ | ⟨c, r⟩
  · have some := congrArg List.length (h.chars.symm.trans chars)
    simp [h.lettered] at some
  have named : ∀ d ∈ reference.toList, isNameChar d = true := fun d member =>
    (h.mem_cases member).elim (fun letter => by simp [isNameChar, (starts_name letter).2.2.2.2])
      fun digit => (digit_spec digit).2.2.2
  have letter : c.isAlpha = true := by
    obtain ⟨d, rest, split⟩ := List.exists_cons_of_ne_nil h.lettered
    rw [h.chars, split] at chars
    cases chars
    exact h.alphabetic c (by simp [split])
  rw [chars] at named
  obtain ⟨solid, other, point, quote, start⟩ := starts_name letter
  have blank : run isBlank (c :: r) = 0 := by simp [run, solid]
  have digit : run isDigit (c :: r) = 0 := by simp [run, other]
  have number : numberLength (c :: r) = 0 := by
    rw [numberLength_of_no_point, if_pos digit]
    intro rest same
    simp only [List.dropWhile_cons, other] at same
    cases same
    exact point rfl
  have text : textLength (c :: r) = 0 := textLength_of_not_quote quote r
  have all : run isNameChar r = r.length := by
    rw [run, ← List.append_nil r, List.takeWhile_append_of_pos]
    · simp
    · exact fun d member => named d (List.mem_cons_of_mem _ member)
  have name : nameLength (c :: r) = (c :: r).length := by
    rw [nameLength, if_pos start, all, List.length_cons, Nat.add_comm]
  unfold lexeme?
  rw [blank, number, text, name]
  rfl

theorem parse_eq (h : IsReference reference letters digits) (limit : Limit) :
    Formula.parse ("=" ++ reference) limit =
      .ok ⟨"=" ++ reference, .atom ⟨.cell, reference, 1⟩⟩ := by
  have leaf : Derives .primary [⟨.name, reference, 1⟩] (.atom ⟨.cell, reference, 1⟩) :=
    .cell (t := ⟨.name, reference, 1⟩) rfl h.not_isTruthWord h.isCellKey_eq
  have chars : ("=" ++ reference).toList = '=' :: reference.toList := by
    rw [String.toList_append]
    rfl
  have lexeme : lexeme? (reference.toList ++ []) =
      some ⟨some .name, reference.toList.length⟩ := by
    rw [List.append_nil, h.lexeme?_eq]
  have name := Scanned.token lexeme (.done (0 + 1 + reference.toList.length))
  rw [List.append_nil, String.ofList_toList] at name
  refine parse_eq_ok_iff.2 ⟨rfl, ?_, _, ?_, leaf.of_primary, limit.allows_atom _⟩
  · rw [chars]
    rfl
  · exact (name.symbol rfl rfl).scan_eq chars

end IsReference

end Worksheet
