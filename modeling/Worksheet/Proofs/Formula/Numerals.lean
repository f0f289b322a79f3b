-- What the scanner takes for a number, in digits of any script, stands for a double. So a number in
-- a formula always has a value, though that value may be too large to be finite.
import Mathlib.Logic.Basic
import Worksheet.Formula.Token
import Worksheet.Number.Numeral

namespace Worksheet.Formula

open Worksheet.Number Worksheet.Text

/-- A power of ten: nothing, or an `e`, a sign or none, and digits that `digit` accepts. -/
inductive IsPower (digit : Char → Bool) : List Char → Prop
  | absent : IsPower digit []
  | present {c : Char} {sign digits : List Char} (mark : c = 'e' ∨ c = 'E')
      (signed : sign = [] ∨ sign = ['+'] ∨ sign = ['-']) (nonempty : digits ≠ [])
      (all : ∀ d ∈ digits, digit d = true) : IsPower digit (c :: (sign ++ digits))

/-- A number without a sign: digits with a point after or among them or none, and a power of
ten. -/
structure IsNumeral (digit : Char → Bool) (cs whole point fraction power : List Char) : Prop where
  eq : cs = whole ++ (point ++ (fraction ++ power))
  pointed : point = ['.'] ∨ point = [] ∧ fraction = []
  nonempty : whole ≠ [] ∨ fraction ≠ []
  all_whole : ∀ d ∈ whole, digit d = true
  all_fraction : ∀ d ∈ fraction, digit d = true
  isPower : IsPower digit power

theorem take_run (p : Char → Bool) (cs : List Char) : cs.take (run p cs) = cs.takeWhile p := by
  have whole : cs.takeWhile p ++ cs.dropWhile p = cs := List.takeWhile_append_dropWhile
  calc cs.take (run p cs)
      = (cs.takeWhile p ++ cs.dropWhile p).take (cs.takeWhile p).length := by rw [whole, run]
    _ = cs.takeWhile p := List.take_left

theorem drop_run (p : Char → Bool) (cs : List Char) : cs.drop (run p cs) = cs.dropWhile p := by
  have whole : cs.takeWhile p ++ cs.dropWhile p = cs := List.takeWhile_append_dropWhile
  calc cs.drop (run p cs)
      = (cs.takeWhile p ++ cs.dropWhile p).drop (cs.takeWhile p).length := by rw [whole, run]
    _ = cs.dropWhile p := List.drop_left

theorem run_eq_zero_iff (p : Char → Bool) (cs : List Char) : run p cs = 0 ↔ cs.takeWhile p = [] :=
  List.length_eq_zero_iff

theorem all_takeWhile (p : Char → Bool) (cs : List Char) : ∀ c ∈ cs.takeWhile p, p c = true :=
  List.all_eq_true.1 List.all_takeWhile

def signLength (cs : List Char) : Nat :=
  if cs.head? = some '+' ∨ cs.head? = some '-' then 1 else 0

theorem take_signLength (cs : List Char) :
    cs.take (signLength cs) = [] ∨ cs.take (signLength cs) = ['+'] ∨
      cs.take (signLength cs) = ['-'] := by
  cases cs with
  | nil => exact Or.inl rfl
  | cons c r => by_cases hp : c = '+' <;> by_cases hm : c = '-' <;> simp [signLength, hp, hm]

theorem exponentLength_cons (c : Char) (r : List Char) :
    exponentLength (c :: r) =
      if c = 'e' ∨ c = 'E' then
        if run isDigit (r.drop (signLength r)) = 0 then 0
        else 1 + signLength r + run isDigit (r.drop (signLength r))
      else 0 := rfl

theorem isPower_take (cs : List Char) : IsPower isDigit (cs.take (exponentLength cs)) := by
  cases cs with
  | nil => exact .absent
  | cons c r =>
    rw [exponentLength_cons]
    split
    · rename_i mark
      split
      · exact .absent
      · rename_i some
        rw [Nat.add_assoc, Nat.add_comm 1, List.take_succ_cons, List.take_add, take_run]
        refine .present mark (take_signLength r) (fun empty => some ?_) (all_takeWhile _ _)
        exact (run_eq_zero_iff _ _).2 empty
    · exact .absent

theorem numberLength_of_point {cs r : List Char} (h : cs.dropWhile isDigit = '.' :: r) :
    numberLength cs =
      if run isDigit cs = 0 ∧ run isDigit r = 0 then 0
      else run isDigit cs + 1 + run isDigit r + exponentLength (r.dropWhile isDigit) := by
  unfold numberLength
  simp only [drop_run, h]

theorem numberLength_of_no_point {cs : List Char} (h : ∀ r, cs.dropWhile isDigit ≠ '.' :: r) :
    numberLength cs =
      if run isDigit cs = 0 then 0
      else run isDigit cs + exponentLength (cs.dropWhile isDigit) := by
  unfold numberLength
  simp only [drop_run]

theorem isNumeral_take {cs : List Char} (h : 0 < numberLength cs) :
    ∃ whole point fraction power,
      IsNumeral isDigit (cs.take (numberLength cs)) whole point fraction power := by
  by_cases pointed : ∃ r, cs.dropWhile isDigit = '.' :: r
  · obtain ⟨r, point⟩ := pointed
    have split : cs.drop (run isDigit cs) = '.' :: r := by rw [drop_run, point]
    rw [numberLength_of_point point] at h ⊢
    split at h
    · cases h
    rename_i some
    rw [if_neg some]
    refine ⟨cs.takeWhile isDigit, ['.'], r.takeWhile isDigit,
      (r.dropWhile isDigit).take (exponentLength (r.dropWhile isDigit)), ?_, Or.inl rfl, ?_,
      all_takeWhile _ _, all_takeWhile _ _, isPower_take _⟩
    · rw [Nat.add_assoc, Nat.add_assoc, List.take_add, take_run, split, Nat.add_comm 1,
        List.take_succ_cons, List.take_add, take_run, drop_run]
      rfl
    · rw [ne_eq, ne_eq, ← not_and_or, ← run_eq_zero_iff, ← run_eq_zero_iff]
      exact some
  · have plain : ∀ r, cs.dropWhile isDigit ≠ '.' :: r := fun r same => pointed ⟨r, same⟩
    rw [numberLength_of_no_point plain] at h ⊢
    split at h
    · cases h
    rename_i some
    rw [if_neg some]
    refine ⟨cs.takeWhile isDigit, [], [],
      (cs.dropWhile isDigit).take (exponentLength (cs.dropWhile isDigit)), ?_, Or.inr ⟨rfl, rfl⟩,
      Or.inl fun empty => some ((run_eq_zero_iff _ _).2 empty), all_takeWhile _ _, by simp,
      isPower_take _⟩
    rw [List.take_add, take_run, drop_run]
    rfl

theorem isDigit_of_digitChar {d : Nat} (h : d < 10) : (Nat.digitChar d).isDigit = true := by
  decide +revert

theorem not_blank_zeros : ∀ z ∈ zeros, 128 ≤ z + 9 → ∀ i < 10,
    (z + i == 0x85 || z + i == 0xA0 || z + i == 0x1680 || (0x2000 ≤ z + i && z + i ≤ 0x200A) ||
      z + i == 0x2028 || z + i == 0x2029 || z + i == 0x202F || z + i == 0x205F ||
      z + i == 0x3000) = false := by
  decide

theorem exists_zero {c : Char} {d : Nat} (h : digitValue? c = some d) :
    ∃ z ∈ zeros, z ≤ c.toNat ∧ c.toNat < z + 10 := by
  obtain ⟨z, found, _⟩ := Option.map_eq_some_iff.1 h
  have range := List.find?_some found
  simp only [Bool.and_eq_true, decide_eq_true_eq] at range
  exact ⟨z, List.mem_of_find?_eq_some found, range⟩

theorem zero_of_ascii : ∀ z ∈ zeros, z < 128 → z = 0x30 := by decide

theorem not_blank_of_isDigit {c : Char} (h : isDigit c = true) : isBlank c = false := by
  obtain ⟨d, value⟩ := Option.isSome_iff_exists.1 h
  obtain ⟨z, member, least, most⟩ := exists_zero value
  by_cases low : z < 128
  · obtain rfl := zero_of_ascii z member low
    simp [isBlank]
    omega
  · have table := not_blank_zeros z member (by omega) (c.toNat - z) (by omega)
    rw [Nat.add_sub_cancel' least] at table
    simp only [isBlank, Bool.or_eq_false_iff] at table ⊢
    simp [table]
    omega

theorem isDigit_plainChar {c : Char} (h : isDigit c = true) : (plainChar c).isDigit = true := by
  have notBlank := not_blank_of_isDigit h
  obtain ⟨d, value⟩ := Option.isSome_iff_exists.1 h
  obtain ⟨z, member, least, most⟩ := exists_zero value
  unfold plainChar
  split
  · obtain rfl := zero_of_ascii z member (by omega)
    simp only [Char.isDigit, Bool.and_eq_true, decide_eq_true_eq, UInt32.le_iff_toNat_le]
    exact ⟨least, Nat.le_of_lt_succ most⟩
  · rw [notBlank, value]
    exact isDigit_of_digitChar (digitValue?_lt value)

theorem IsPower.map_plainChar {p : List Char} (h : IsPower isDigit p) :
    IsPower Char.isDigit (p.map plainChar) := by
  cases h with
  | absent => exact .absent
  | @present c sign digits mark signed nonempty all =>
    have same : plainChar c = c := by rcases mark with rfl | rfl <;> rfl
    have sameSign : sign.map plainChar = sign := by rcases signed with rfl | rfl | rfl <;> rfl
    rw [List.map_cons, List.map_append, same, sameSign]
    refine .present mark signed (by simpa using nonempty) ?_
    intro d hd
    obtain ⟨x, hx, rfl⟩ := List.mem_map.1 hd
    exact isDigit_plainChar (all x hx)

theorem IsNumeral.map_plainChar {cs whole point fraction power : List Char}
    (h : IsNumeral isDigit cs whole point fraction power) :
    IsNumeral Char.isDigit (cs.map plainChar) (whole.map plainChar) point (fraction.map plainChar)
      (power.map plainChar) := by
  have plain : ∀ ds : List Char, (∀ d ∈ ds, isDigit d = true) →
      ∀ d ∈ ds.map plainChar, d.isDigit = true := by
    intro ds all d hd
    obtain ⟨x, hx, rfl⟩ := List.mem_map.1 hd
    exact isDigit_plainChar (all x hx)
  have samePoint : point.map plainChar = point := by
    rcases h.pointed with rfl | ⟨rfl, _⟩ <;> rfl
  refine ⟨?_, ?_, by simpa using h.nonempty, plain _ h.all_whole, plain _ h.all_fraction,
    h.isPower.map_plainChar⟩
  · rw [h.eq, List.map_append, List.map_append, List.map_append, samePoint]
  · rcases h.pointed with rfl | ⟨rfl, rfl⟩
    · exact Or.inl rfl
    · exact Or.inr ⟨rfl, rfl⟩

theorem span_digits {ds rest : List Char} (all : ∀ d ∈ ds, d.isDigit = true)
    (stop : ∀ c, rest.head? = some c → c.isDigit = false) :
    (ds ++ rest).takeWhile Char.isDigit = ds ∧ (ds ++ rest).dropWhile Char.isDigit = rest := by
  have none : rest.takeWhile Char.isDigit = [] ∧ rest.dropWhile Char.isDigit = rest := by
    cases rest with
    | nil => exact ⟨rfl, rfl⟩
    | cons c r => simp [stop c rfl]
  rw [List.takeWhile_append_of_pos all, List.dropWhile_append_of_pos all, none.1, none.2,
    List.append_nil]
  exact ⟨rfl, rfl⟩

theorem IsPower.head_not_digit {p : List Char} (h : IsPower Char.isDigit p) :
    ∀ c, p.head? = some c → c.isDigit = false ∧ c ≠ '.' := by
  intro c hc
  cases h with
  | absent => cases hc
  | present mark =>
    cases hc
    rcases mark with rfl | rfl <;> decide

theorem splitSign_of_digit {c : Char} {r : List Char} (h : c.isDigit = true ∨ c = '.') :
    splitSign (c :: r) = (false, c :: r) := by
  unfold splitSign
  split
  · rename_i same
    cases same
    exact absurd h (by decide)
  · rename_i same
    cases same
    exact absurd h (by decide)
  · rfl

/-- The power of ten that a number ends in; it is zero where none is written. -/
def endPower? : List Char → Option Int
  | [] => some 0
  | _ :: r => power? r

theorem IsPower.endPower?_isSome {p : List Char} (h : IsPower Char.isDigit p) :
    (endPower? p).isSome = true := by
  cases h with
  | absent => rfl
  | @present c sign digits mark signed nonempty all =>
    have split : ∃ negative, splitSign (sign ++ digits) = (negative, digits) := by
      rcases signed with rfl | rfl | rfl
      · cases digits with
        | nil => exact absurd rfl nonempty
        | cons d ds => exact ⟨false, splitSign_of_digit (Or.inl (all d (List.mem_cons_self ..)))⟩
      · exact ⟨false, rfl⟩
      · exact ⟨true, rfl⟩
    obtain ⟨negative, split⟩ := split
    have digital : (digits.isEmpty || !digits.all Char.isDigit) = false := by
      simp only [Bool.or_eq_false_iff, List.isEmpty_eq_false_iff, Bool.not_eq_false',
        List.all_eq_true]
      exact ⟨nonempty, all⟩
    simp [endPower?, power?, split, digital]

/-- A number in plain characters is the decimal of its digits, with the places after the point
taken off its power of ten. -/
theorem IsNumeral.decimal?_eq {cs whole point fraction power : List Char}
    (h : IsNumeral Char.isDigit cs whole point fraction power) :
    decimal? cs = (endPower? power).map fun k =>
      ⟨(whole ++ fraction).map digitOf, k - fraction.length⟩ := by
  have afterFraction := span_digits h.all_fraction fun c hc => (h.isPower.head_not_digit c hc).1
  have stop : ∀ c, (point ++ (fraction ++ power)).head? = some c → c.isDigit = false := by
    rcases h.pointed with rfl | ⟨rfl, rfl⟩
    · rintro c ⟨⟩
      decide
    · exact fun c hc => (h.isPower.head_not_digit c hc).1
  have afterWhole := span_digits h.all_whole stop
  have filled : (whole.isEmpty && fraction.isEmpty) = false := by
    rw [Bool.and_eq_false_iff, List.isEmpty_eq_false_iff, List.isEmpty_eq_false_iff]
    exact h.nonempty
  have powered := h.isPower
  rw [← h.eq] at afterWhole
  rcases h.pointed with rfl | ⟨rfl, rfl⟩
  · simp only [decimal?, afterWhole.1, afterWhole.2, List.cons_append, List.nil_append,
      afterFraction.1, afterFraction.2, filled, Bool.false_eq_true, if_false]
    cases powered with
    | absent => simp [endPower?]
    | present mark => simp only [if_pos mark, endPower?]
  · rw [List.nil_append, List.nil_append] at afterWhole
    have some : whole ≠ [] := h.nonempty.resolve_right fun no => no rfl
    cases powered with
    | absent => simp [decimal?, afterWhole, some, endPower?]
    | present mark => rcases mark with rfl | rfl <;> simp [decimal?, afterWhole, some, endPower?]

theorem IsNumeral.decimal?_isSome {cs whole point fraction power : List Char}
    (h : IsNumeral Char.isDigit cs whole point fraction power) : (decimal? cs).isSome = true := by
  rw [h.decimal?_eq, Option.isSome_map, h.isPower.endPower?_isSome]

theorem IsNumeral.chars {cs whole point fraction power : List Char}
    (h : IsNumeral Char.isDigit cs whole point fraction power) :
    ∀ c ∈ cs, c.isDigit = true ∨ c ∈ ['.', 'e', 'E', '+', '-'] := by
  intro c hc
  rw [h.eq] at hc
  simp only [List.mem_append] at hc
  rcases hc with hc | hc | hc | hc
  · exact Or.inl (h.all_whole c hc)
  · rcases h.pointed with rfl | ⟨rfl, _⟩
    · rw [List.mem_singleton] at hc
      exact Or.inr (by simp [hc])
    · cases hc
  · exact Or.inl (h.all_fraction c hc)
  · cases h.isPower with
    | absent => cases hc
    | present mark signed nonempty all =>
      rcases List.mem_cons.1 hc with rfl | hc
      · exact Or.inr (by rcases mark with rfl | rfl <;> simp)
      rcases List.mem_append.1 hc with hc | hc
      · refine Or.inr ?_
        rcases signed with rfl | rfl | rfl
        · cases hc
        · simp [List.mem_singleton.1 hc]
        · simp [List.mem_singleton.1 hc]
      · exact Or.inl (all c hc)

theorem IsNumeral.head {cs whole point fraction power : List Char}
    (h : IsNumeral Char.isDigit cs whole point fraction power) :
    ∃ c r, cs = c :: r ∧ (c.isDigit = true ∨ c = '.') := by
  rw [h.eq]
  cases whole with
  | cons c r => exact ⟨c, _, rfl, Or.inl (h.all_whole c (List.mem_cons_self ..))⟩
  | nil =>
    rcases h.pointed with rfl | ⟨rfl, rfl⟩
    · exact ⟨'.', _, rfl, Or.inr rfl⟩
    · exact absurd h.nonempty (by simp)

theorem joinDigits?_eq_self {cs : List Char} (h : ∀ c ∈ cs, c ≠ '_') (after : Bool) :
    joinDigits? after cs = some cs := by
  induction cs generalizing after with
  | nil => rfl
  | cons c r ih =>
    have rest := ih (fun x hx => h x (List.mem_cons_of_mem _ hx)) c.isDigit
    simp [joinDigits?, h c (List.mem_cons_self ..), rest]

theorem isMargin_eq_false {c : Char} (h : c.isDigit = true ∨ c ∈ ['.', 'e', 'E', '+', '-']) :
    isMargin c = false ∧ c ≠ '_' := by
  rcases h with digit | other
  · simp only [Char.isDigit, Bool.and_eq_true, decide_eq_true_eq, UInt32.le_iff_toNat_le] at digit
    have low : 48 ≤ c.toNat := digit.1
    refine ⟨?_, ?_⟩
    · have space : c ≠ ' ' := fun same => by rw [same] at low; exact absurd low (by decide)
      simp [isMargin, space]
      omega
    · rintro rfl
      exact absurd digit.2 (by decide)
  · simp only [List.mem_cons, List.not_mem_nil, or_false] at other
    rcases other with rfl | rfl | rfl | rfl | rfl <;> decide

theorem toLower_of_digit {c : Char} (h : c.isDigit = true ∨ c = '.') : c.toLower = c := by
  rcases h with digit | rfl
  · simp only [Char.isDigit, Bool.and_eq_true, decide_eq_true_eq] at digit
    exact dif_neg fun upper => absurd (UInt32.le_trans upper.1 digit.2) (by decide)
  · rfl

/-- Neither a word for infinity nor one for no number starts as a number does. -/
theorem IsNumeral.not_word {cs whole point fraction power : List Char}
    (h : IsNumeral Char.isDigit cs whole point fraction power) {c : Char} {r : List Char}
    (letter : c.isDigit = false ∧ c ≠ '.') :
    String.ofList (cs.map Char.toLower) ≠ .ofList (c :: r) := by
  obtain ⟨d, ds, rfl, head⟩ := h.head
  intro same
  have same := String.ofList_injective same
  rw [List.map_cons, toLower_of_digit head] at same
  obtain ⟨rfl, -⟩ := List.cons.inj same
  rcases head with digit | rfl
  · rw [letter.1] at digit
    cases digit
  · exact letter.2 rfl

/-- A text of a number with a minus or no sign is read as the double nearest to the decimal. -/
theorem IsNumeral.read?_eq {cs whole point fraction power : List Char}
    (h : IsNumeral Char.isDigit cs whole point fraction power) (negative : Bool) {s : String}
    (plain : s.toList.map plainChar = if negative then '-' :: cs else cs) :
    read? s = (decimal? cs).map (Decimal.toFloat negative) := by
  have clear : ∀ c ∈ s.toList.map plainChar, isMargin c = false ∧ c ≠ '_' := by
    intro c hc
    rw [plain] at hc
    refine isMargin_eq_false ?_
    cases negative with
    | false => exact h.chars c hc
    | true =>
      rcases List.mem_cons.1 hc with rfl | hc
      · exact Or.inr (by decide)
      · exact h.chars c hc
  have trimmed : trimBy isMargin (s.toList.map plainChar) = s.toList.map plainChar :=
    trimBy_eq_self (fun c hc => (clear c (List.mem_of_mem_head? hc)).1)
      (fun c hc => (clear c (List.mem_of_mem_getLast? hc)).1)
  have joined := joinDigits?_eq_self (fun c hc => (clear c hc).2) false
  have signed : splitSign (s.toList.map plainChar) = (negative, cs) := by
    rw [plain]
    cases negative with
    | false =>
      obtain ⟨c, r, cons, head⟩ := h.head
      exact cons ▸ splitSign_of_digit head
    | true => rfl
  rw [read?, trimmed, joined, Option.bind_some, plainNumeral?, signed]
  dsimp only
  rw [if_neg (not_or.2 ⟨h.not_word (by decide), h.not_word (by decide)⟩),
    if_neg (h.not_word (by decide))]

/-- What the scanner takes for a number stands for a double. -/
theorem read?_number {cs : List Char} (h : 0 < numberLength cs) :
    (read? (.ofList (cs.take (numberLength cs)))).isSome = true := by
  obtain ⟨whole, point, fraction, power, numeral⟩ := isNumeral_take h
  have plain := numeral.map_plainChar
  rw [plain.read?_eq false (by rw [String.toList_ofList]; rfl), Option.isSome_map,
    plain.decimal?_isSome]

end Worksheet.Formula
