-- Where a lexeme ends. Which one stands at the front of a text hangs on its own characters, and of
-- those that come next only on what could make it longer. So it stays the same where the text is
-- cut off after it, and where a character is put in after which every lexeme is at its end.
import Mathlib.Data.List.Basic
import Worksheet.Proofs.Formula.Numerals
import Worksheet.Text.Doubled

namespace Worksheet.Formula

open Worksheet.Text (double isBlank isDigit)

/-! ## Runs -/

theorem run_le (p : Char → Bool) (cs : List Char) : run p cs ≤ cs.length :=
  (List.takeWhile_prefix p).length_le

theorem run_cut (p : Char → Bool) {cs ds : List Char} (short : run p (cs ++ ds) ≤ cs.length) :
    run p cs = run p (cs ++ ds) := by
  unfold run at short ⊢
  rw [List.takeWhile_append] at short ⊢
  split at short
  · rename_i whole
    simp only [List.length_append] at short
    rw [if_pos whole, List.length_append]
    omega
  · rename_i part
    rw [if_neg part]

theorem run_divide {p : Char → Bool} {c : Char} (h : p c = false) (cs ds : List Char) :
    run p (cs ++ c :: ds) = run p cs := by
  induction cs with
  | nil => simp [run, h]
  | cons d cs ih =>
    unfold run at ih ⊢
    by_cases hd : p d = true
    · simp only [List.cons_append, List.takeWhile_cons_of_pos hd, List.length_cons, ih]
    · simp [hd]

theorem run_of_head {p : Char → Bool} {c : Char} (h : p c = false) (cs : List Char) :
    run p (c :: cs) = 0 := by
  simp [run, h]

theorem run_append_of_all {p : Char → Bool} {cs : List Char} (all : ∀ c ∈ cs, p c = true)
    (ds : List Char) : run p (cs ++ ds) = cs.length + run p ds := by
  rw [run, List.takeWhile_append_of_pos all, List.length_append, run]

/-! ## Numbers -/

/-- A character that makes no token before it longer. -/
structure Ends (c : Char) : Prop where
  digit : isDigit c = false
  name : isNameChar c = false
  sign : c ∉ ['.', '+', '-']
  relation : c ∉ ['>', '=']
  quote : c ≠ '"'

/-- A character that makes no lexeme before it longer, blanks among them. -/
structure Divides (c : Char) : Prop extends Ends c where
  blank : isBlank c = false

theorem divides_opening : Divides '(' := ⟨by constructor <;> decide, by decide⟩

theorem divides_closing : Divides ')' := ⟨by constructor <;> decide, by decide⟩

theorem Ends.not_mark {c : Char} (h : Ends c) : ¬ (c = 'e' ∨ c = 'E') := by
  rintro (rfl | rfl) <;> exact absurd h.name (by decide)

theorem signLength_le (cs : List Char) : signLength cs ≤ 1 := by
  unfold signLength
  split <;> omega

theorem signLength_append {cs : List Char} (full : cs ≠ []) (ds : List Char) :
    signLength (cs ++ ds) = signLength cs := by
  obtain ⟨c, r, rfl⟩ := List.exists_cons_of_ne_nil full
  rfl

theorem drop_signLength_append {cs : List Char} (full : cs ≠ []) (ds : List Char) :
    (cs ++ ds).drop (signLength (cs ++ ds)) = cs.drop (signLength cs) ++ ds := by
  have size := List.length_pos_iff.2 full
  have sign := signLength_le cs
  rw [signLength_append full, List.drop_append_of_le_length (by omega)]

theorem exponentLength_cut {cs ds : List Char} (short : exponentLength (cs ++ ds) ≤ cs.length) :
    exponentLength cs = exponentLength (cs ++ ds) := by
  rcases cs with _ | ⟨c, r⟩
  · exact (Nat.le_zero.1 short).symm
  rw [List.cons_append, exponentLength_cons] at short ⊢
  rw [exponentLength_cons]
  split
  · rename_i mark
    rw [if_pos mark] at short
    by_cases none : r = []
    · subst none
      have few : run isDigit (ds.drop (signLength ds)) = 0 := by
        simp only [List.nil_append, List.length_singleton] at short
        split at short <;> omega
      rw [List.nil_append, if_pos few]
      rfl
    · have size := List.length_drop (i := signLength r) (l := r)
      have sign := signLength_le r
      have long := List.length_pos_iff.2 none
      rw [drop_signLength_append none, signLength_append none] at short ⊢
      have digits : run isDigit (r.drop (signLength r) ++ ds) ≤ (r.drop (signLength r)).length := by
        simp only [List.length_cons] at short
        split at short <;> omega
      rw [run_cut isDigit digits]
  · rfl

theorem exponentLength_divide {c : Char} (h : Ends c) (cs ds : List Char) :
    exponentLength (cs ++ c :: ds) = exponentLength cs := by
  rcases cs with _ | ⟨d, r⟩
  · rw [List.nil_append, exponentLength_cons, if_neg h.not_mark]
    rfl
  rw [List.cons_append, exponentLength_cons, exponentLength_cons]
  by_cases none : r = []
  · have plus : c ≠ '+' := fun same => h.sign (by simp [same])
    have minus : c ≠ '-' := fun same => h.sign (by simp [same])
    simp [none, signLength, plus, minus, run, h.digit]
  · rw [drop_signLength_append none, signLength_append none, run_divide h.digit]

theorem run_le_numberLength (cs : List Char) : run isDigit cs ≤ numberLength cs := by
  by_cases pointed : ∃ r, cs.dropWhile isDigit = '.' :: r
  · obtain ⟨r, point⟩ := pointed
    rw [numberLength_of_point point]
    split <;> omega
  · rw [numberLength_of_no_point fun r same => pointed ⟨r, same⟩]
    split <;> omega

theorem dropWhile_append_of_run {p : Char → Bool} {cs ds : List Char}
    (same : run p cs = run p (cs ++ ds)) :
    (cs ++ ds).dropWhile p = cs.dropWhile p ++ ds := by
  rw [← drop_run, ← drop_run, ← same, List.drop_append_of_le_length (run_le p cs)]

theorem length_dropWhile (p : Char → Bool) (cs : List Char) :
    run p cs + (cs.dropWhile p).length = cs.length := by
  rw [run, ← List.length_append, List.takeWhile_append_dropWhile]

theorem numberLength_cut {cs ds : List Char} (short : numberLength (cs ++ ds) ≤ cs.length) :
    numberLength cs = numberLength (cs ++ ds) := by
  have whole := run_cut isDigit (Nat.le_trans (run_le_numberLength (cs ++ ds)) short)
  have rest := dropWhile_append_of_run whole
  have size := length_dropWhile isDigit cs
  rcases after : cs.dropWhile isDigit with _ | ⟨c, r⟩ <;> rw [after] at rest size
  -- Nothing is left but digits.
  · have least := run_le_numberLength (cs ++ ds)
    have power : exponentLength [] = 0 := rfl
    rw [numberLength_of_no_point fun r same => by simp [after] at same, after, power]
    simp only [List.length_nil] at size
    split <;> omega
  rw [List.cons_append] at rest
  simp only [List.length_cons] at size
  by_cases point : c = '.'
  · subst point
    rw [numberLength_of_point after]
    rw [numberLength_of_point rest] at short ⊢
    have fraction : run isDigit r = run isDigit (r ++ ds) := by
      apply run_cut
      split at short <;> omega
    have tail := length_dropWhile isDigit r
    rw [dropWhile_append_of_run fraction] at short ⊢
    rw [← whole, ← fraction] at short ⊢
    split
    · rfl
    · rename_i some
      rw [if_neg some] at short
      have power : exponentLength (r.dropWhile isDigit) =
          exponentLength (r.dropWhile isDigit ++ ds) := exponentLength_cut (by omega)
      rw [power]
  · have plain : ∀ r, cs.dropWhile isDigit ≠ '.' :: r := fun r same =>
      point (List.cons.inj (after.symm.trans same)).1
    have plain' : ∀ r, (cs ++ ds).dropWhile isDigit ≠ '.' :: r := fun r same =>
      point (List.cons.inj (rest.symm.trans same)).1
    rw [numberLength_of_no_point plain, after]
    rw [numberLength_of_no_point plain', rest, ← whole] at short ⊢
    split
    · rfl
    · rename_i some
      rw [if_neg some] at short
      have power : exponentLength (c :: r) = exponentLength (c :: r ++ ds) := by
        apply exponentLength_cut
        simp only [List.cons_append, List.length_cons]
        omega
      rw [power, List.cons_append]

theorem numberLength_divide {c : Char} (h : Ends c) (cs ds : List Char) :
    numberLength (cs ++ c :: ds) = numberLength cs := by
  have whole := run_divide h.digit cs ds
  have rest := dropWhile_append_of_run whole.symm
  by_cases pointed : ∃ r, cs.dropWhile isDigit = '.' :: r
  · obtain ⟨r, after⟩ := pointed
    rw [after, List.cons_append] at rest
    have fraction := run_divide h.digit r ds
    rw [numberLength_of_point after, numberLength_of_point rest, whole, fraction,
      dropWhile_append_of_run fraction.symm, exponentLength_divide h]
  · have plain : ∀ r, cs.dropWhile isDigit ≠ '.' :: r := fun r same => pointed ⟨r, same⟩
    have plain' : ∀ r, (cs ++ c :: ds).dropWhile isDigit ≠ '.' :: r := by
      intro r same
      rw [rest] at same
      rcases after : cs.dropWhile isDigit with _ | ⟨d, r'⟩ <;> rw [after] at same
      · exact h.sign (by simp [(List.cons.inj same).1])
      · exact plain r' (by rw [after, (List.cons.inj same).1])
    rw [numberLength_of_no_point plain, numberLength_of_no_point plain', whole, rest,
      exponentLength_divide h]

/-! ## Names and symbols -/

theorem nameLength_cut {cs ds : List Char} (full : cs ≠ [])
    (short : nameLength (cs ++ ds) ≤ cs.length) : nameLength cs = nameLength (cs ++ ds) := by
  obtain ⟨c, r, rfl⟩ := List.exists_cons_of_ne_nil full
  simp only [List.cons_append, nameLength, List.length_cons] at short ⊢
  split
  · rename_i start
    rw [if_pos start] at short
    have later : run isNameChar r = run isNameChar (r ++ ds) := run_cut isNameChar (by omega)
    rw [later]
  · rfl

theorem nameLength_divide {c : Char} (h : Ends c) {cs : List Char} (full : cs ≠ [])
    (ds : List Char) : nameLength (cs ++ c :: ds) = nameLength cs := by
  obtain ⟨d, r, rfl⟩ := List.exists_cons_of_ne_nil full
  simp only [List.cons_append, nameLength, run_divide h.name]

def marks : List Char := ['=', '<', '>', '&', '+', '-', '*', '/', '^', '%', '(', ')']

theorem symbol?_of_not_mark {c : Char} (plain : c ∉ marks) (r : List Char) :
    symbol? (c :: r) = none := by
  unfold symbol?
  split <;> simp_all [marks]

theorem symbol?_less {d : Char} (greater : d ≠ '>') (equal : d ≠ '=') (r : List Char) :
    symbol? ('<' :: d :: r) = some .less := by
  unfold symbol?
  split <;> simp_all

theorem symbol?_greater {d : Char} (equal : d ≠ '=') (r : List Char) :
    symbol? ('>' :: d :: r) = some .greater := by
  unfold symbol?
  split <;> simp_all

/-- A symbol of one character hangs on it, and on whether `>` or `=` comes next. -/
theorem symbol?_single {c : Char} {cs ds : List Char} {s : Symbol}
    (found : symbol? (c :: cs) = some s) (single : s.text.length = 1)
    (next : ds.head? = cs.head? ∨ ∀ d, ds.head? = some d → d ∉ ['>', '=']) :
    symbol? (c :: ds) = some s := by
  have apart : ∀ e ∈ ['>', '='], cs.head? ≠ some e → ds.head? ≠ some e := by
    intro e relation other here
    rcases next with same | none
    · exact other (same ▸ here)
    · exact none e here relation
  unfold symbol? at found
  split at found
  case h_1 => cases found; cases single
  case h_2 => cases found; cases single
  case h_3 => cases found; cases single
  case h_5 notGreater notEqual same =>
    cases same
    cases found
    rcases ds with _ | ⟨d, ds⟩
    · rfl
    · have greater := apart '>' (by simp) fun head => by
        obtain ⟨tail, rfl⟩ := List.head?_eq_some_iff.1 head
        exact notGreater tail rfl
      have equal := apart '=' (by simp) fun head => by
        obtain ⟨tail, rfl⟩ := List.head?_eq_some_iff.1 head
        exact notEqual tail rfl
      exact symbol?_less (by simpa using greater) (by simpa using equal) ds
  case h_6 notEqual same =>
    cases same
    cases found
    rcases ds with _ | ⟨d, ds⟩
    · rfl
    · have equal := apart '=' (by simp) fun head => by
        obtain ⟨tail, rfl⟩ := List.head?_eq_some_iff.1 head
        exact notEqual tail rfl
      exact symbol?_greater (by simpa using equal) ds
  case h_16 => cases found
  all_goals
    rename_i same
    cases same
    cases found
    rfl

theorem symbol?_pair {c d : Char} {cs ds : List Char} {s : Symbol}
    (found : symbol? (c :: d :: cs) = some s) (pair : s.text.length = 2) :
    symbol? (c :: d :: ds) = some s := by
  unfold symbol? at found
  split at found
  case h_1 same => cases same; cases found; rfl
  case h_2 same => cases same; cases found; rfl
  case h_3 same => cases same; cases found; rfl
  all_goals cases found <;> cases pair

theorem symbol?_cases (s : Symbol) : s.text.length = 1 ∨ s.text.length = 2 := by
  cases s <;> decide

/-! ## Texts -/

theorem double_append (s t : List Char) : double (s ++ t) = double s ++ double t := by
  induction s with
  | nil => rfl
  | cons c s ih => by_cases quote : c = '"' <;> simp [double, quote, ih]

theorem double_of_not_mem {s : List Char} (none : '"' ∉ s) : double s = s := by
  induction s with
  | nil => rfl
  | cons c s ih =>
    simp only [List.mem_cons, not_or] at none
    rw [double, if_neg (Ne.symm none.1), ih none.2]

theorem closingQuote_cons {c : Char} (other : c ≠ '"') (lastPair : Option Nat) (count : Nat)
    (cs : List Char) :
    closingQuote lastPair count (c :: cs) = closingQuote lastPair (count + 1) cs := by
  cases cs <;> simp [closingQuote, other]

theorem closingQuote_pair (lastPair : Option Nat) (count : Nat) (cs : List Char) :
    closingQuote lastPair count ('"' :: '"' :: cs) =
      closingQuote (some (count + 1)) (count + 2) cs := by
  simp [closingQuote]

/-- A text ends at the first quote that is not doubled. -/
theorem closingQuote_closed (lastPair : Option Nat) (count : Nat) (s : List Char)
    {rest : List Char} (single : rest.head? ≠ some '"') :
    closingQuote lastPair count (double s ++ '"' :: rest) = some (count + (double s).length + 1) := by
  induction s generalizing lastPair count with
  | nil =>
    rcases rest with _ | ⟨d, rest⟩
    · simp [closingQuote, double]
    · have other : d ≠ '"' := by simpa using single
      simp [closingQuote, double, other]
  | cons c s ih =>
    by_cases quote : c = '"'
    · simp only [double, quote, if_true, List.cons_append, closingQuote_pair, ih, List.length_cons]
      congr 1
      omega
    · simp only [double, quote, if_false, List.cons_append, closingQuote_cons quote, ih,
        List.length_cons]
      congr 1
      omega

theorem closingQuote_of_not_mem {cs : List Char} (none : '"' ∉ cs) (lastPair : Option Nat)
    (count : Nat) : closingQuote lastPair count cs = lastPair := by
  induction cs generalizing count with
  | nil => rfl
  | cons c cs ih =>
    simp only [List.mem_cons, not_or] at none
    rw [closingQuote_cons (Ne.symm none.1), ih none.2]

theorem closingQuote_open (lastPair : Option Nat) (count : Nat) (s : List Char) {t : List Char}
    (last : '"' ∉ t) :
    closingQuote lastPair count (double s ++ '"' :: '"' :: t) =
      some (count + (double s).length + 1) := by
  induction s generalizing lastPair count with
  | nil =>
    rw [double, List.nil_append, closingQuote_pair, closingQuote_of_not_mem last]
    simp
  | cons c s ih =>
    by_cases quote : c = '"'
    · simp only [double, quote, if_true, List.cons_append, closingQuote_pair, ih, List.length_cons]
      congr 1
      omega
    · simp only [double, quote, if_false, List.cons_append, closingQuote_cons quote, ih,
        List.length_cons]
      congr 1
      omega

/-- In every text either some quote is not doubled, or all are. -/
theorem closed_or_open (cs : List Char) :
    (∃ s rest, cs = double s ++ '"' :: rest ∧ rest.head? ≠ some '"') ∨ ∃ s, cs = double s := by
  fun_induction Text.undouble cs with
  | case1 => exact Or.inr ⟨[], rfl⟩
  | case2 c =>
    by_cases quote : c = '"'
    · exact Or.inl ⟨[], [], by simp [double, quote], by simp⟩
    · exact Or.inr ⟨[c], by simp [double, quote]⟩
  | case3 c d r pair ih =>
    obtain ⟨rfl, rfl⟩ := pair
    rcases ih with ⟨s, rest, rfl, single⟩ | ⟨s, rfl⟩
    · exact Or.inl ⟨'"' :: s, rest, by simp [double], single⟩
    · exact Or.inr ⟨'"' :: s, by simp [double]⟩
  | case4 c d r other ih =>
    by_cases quote : c = '"'
    · have next : d ≠ '"' := fun same => other ⟨quote, same⟩
      exact Or.inl ⟨[], d :: r, by simp [double, quote], by simpa using next⟩
    · rcases ih with ⟨s, rest, same, single⟩ | ⟨s, same⟩ <;> rw [same]
      · exact Or.inl ⟨c :: s, rest, by simp [double, quote], single⟩
      · exact Or.inr ⟨c :: s, by simp [double, quote]⟩

theorem textLength_of_not_quote {c : Char} (other : c ≠ '"') (r : List Char) :
    textLength (c :: r) = 0 := by
  unfold textLength
  split
  · rename_i same
    cases same
    exact absurd rfl other
  · rfl

theorem textLength_quote (r : List Char) :
    textLength ('"' :: r) = ((closingQuote none 0 r).map (1 + ·)).getD 0 := rfl

theorem lexeme?_quote (r : List Char) :
    lexeme? ('"' :: r) =
      if 0 < textLength ('"' :: r) then some ⟨some .text, textLength ('"' :: r)⟩ else none := by
  have blank : run isBlank ('"' :: r) = 0 := rfl
  have number : numberLength ('"' :: r) = 0 := rfl
  have name : nameLength ('"' :: r) = 0 := rfl
  have symbol : symbol? ('"' :: r) = none := symbol?_of_not_mark (by decide) r
  unfold lexeme?
  rw [blank, number, name, symbol]
  rfl

/-- A text in quotes, with the quotes inside it doubled. -/
def quotedChars (s : List Char) : List Char := '"' :: double s ++ ['"']

/-- A text in quotes is found where no quote comes next, and where the one that does is the last. -/
theorem lexeme?_quotedChars (s : List Char) {cs : List Char}
    (last : cs.head? = some '"' → '"' ∉ cs.tail) :
    lexeme? (quotedChars s ++ cs) = some ⟨some .text, (quotedChars s).length⟩ := by
  have split : quotedChars s ++ cs = '"' :: (double s ++ '"' :: cs) := by simp [quotedChars]
  have closes : closingQuote none 0 (double s ++ '"' :: cs) = some (0 + (double s).length + 1) := by
    by_cases quote : cs.head? = some '"'
    · obtain ⟨t, rfl⟩ := List.head?_eq_some_iff.1 quote
      exact closingQuote_open _ _ _ (last quote)
    · exact closingQuote_closed _ _ _ quote
  have length : textLength ('"' :: (double s ++ '"' :: cs)) = (quotedChars s).length := by
    rw [textLength_quote, closes]
    simp [quotedChars]
    omega
  rw [split, lexeme?_quote, length, if_pos (by simp [quotedChars])]

theorem lexeme?_of_last_quote {cs : List Char} (last : '"' ∉ cs) : lexeme? ('"' :: cs) = none := by
  rw [lexeme?_quote, textLength_quote, closingQuote_of_not_mem last]
  rfl

theorem exists_last {c : Char} {s : List Char} (member : c ∈ s) :
    ∃ before after, s = before ++ c :: after ∧ c ∉ after := by
  obtain ⟨after, before, same, last⟩ := List.eq_append_cons_of_mem (List.mem_reverse.2 member)
  refine ⟨before.reverse, after.reverse, ?_, by simpa using last⟩
  rw [← s.reverse_reverse, same]
  simp

/-- A lexeme that starts with a quote is a text in quotes. Where another quote comes next, it is the
last one. -/
theorem quoted_of_lexeme? {front cs : List Char} {kind? : Option TokenKind}
    (found : lexeme? ('"' :: front ++ cs) = some ⟨kind?, front.length + 1⟩) :
    kind? = some .text ∧
      ∃ s, '"' :: front = quotedChars s ∧ (cs.head? = some '"' → '"' ∉ cs.tail) := by
  rw [List.cons_append, lexeme?_quote] at found
  split at found
  case isFalse => cases found
  rename_i closes
  simp only [Option.some.injEq, Lexeme.mk.injEq] at found
  obtain ⟨rfl, length⟩ := found
  refine ⟨rfl, ?_⟩
  rw [textLength_quote] at closes length
  rcases closed_or_open (front ++ cs) with ⟨s, rest, whole, single⟩ | ⟨s, whole⟩
  · rw [whole, closingQuote_closed _ _ _ single] at length
    have size : front.length = (double s ++ ['"']).length := by
      simp only [Option.map_some, Option.getD_some] at length
      simp only [List.length_append, List.length_singleton]
      omega
    obtain ⟨rfl, rfl⟩ := List.append_inj (whole.trans (List.append_cons ..)) size
    exact ⟨s, rfl, fun head => absurd head single⟩
  · by_cases quote : '"' ∈ s
    · obtain ⟨s₁, s₂, rfl, last⟩ := exists_last quote
      have pair : double ('"' :: s₂) = '"' :: '"' :: s₂ := by
        rw [double, if_pos rfl, double_of_not_mem last]
      rw [double_append, pair] at whole
      rw [whole, closingQuote_open _ _ _ last] at length
      have size : front.length = (double s₁ ++ ['"']).length := by
        simp only [Option.map_some, Option.getD_some] at length
        simp only [List.length_append, List.length_singleton]
        omega
      obtain ⟨rfl, rfl⟩ := List.append_inj (whole.trans (List.append_cons ..)) size
      exact ⟨s₁, rfl, fun _ => last⟩
    · rw [whole, double_of_not_mem quote, closingQuote_of_not_mem quote] at closes
      exact absurd closes (by simp)

/-! ## Lexemes -/

theorem length_pos_of_lexeme? {cs : List Char} {l : Lexeme} (h : lexeme? cs = some l) :
    0 < l.length := by
  unfold lexeme? at h
  split at h
  · cases h; assumption
  split at h
  · cases h; assumption
  split at h
  · cases h; assumption
  split at h
  · cases h; assumption
  · obtain ⟨s, _, rfl⟩ := Option.map_eq_some_iff.1 h
    cases s <;> decide

theorem run_of_blanks {cs : List Char} {n : Nat} (h : lexeme? cs = some ⟨none, n⟩) :
    run isBlank cs = n := by
  unfold lexeme? at h
  split at h
  · cases h
    rfl
  split at h
  · cases h
  split at h
  · cases h
  split at h
  · cases h
  · obtain ⟨s, _, same⟩ := Option.map_eq_some_iff.1 h
    cases same

theorem run_of_token {cs : List Char} {kind : TokenKind} {n : Nat}
    (h : lexeme? cs = some ⟨some kind, n⟩) : run isBlank cs = 0 := by
  unfold lexeme? at h
  split at h
  · cases h
  · omega

theorem not_blank_of_token {c : Char} {cs : List Char} {kind : TokenKind} {n : Nat}
    (h : lexeme? (c :: cs) = some ⟨some kind, n⟩) : isBlank c = false := by
  have none := run_of_token h
  by_contra blank
  have some : isBlank c = true := by simpa using blank
  simp [run, some] at none

theorem exponentLength_le (cs : List Char) : exponentLength cs ≤ cs.length := by
  rcases cs with _ | ⟨c, r⟩
  · exact Nat.le_refl 0
  have digits := run_le isDigit (r.drop (signLength r))
  rw [List.length_drop] at digits
  rw [exponentLength_cons, List.length_cons]
  split
  · split <;> omega
  · omega

theorem numberLength_le (cs : List Char) : numberLength cs ≤ cs.length := by
  have size := length_dropWhile isDigit cs
  by_cases pointed : ∃ r, cs.dropWhile isDigit = '.' :: r
  · obtain ⟨r, point⟩ := pointed
    have tail := length_dropWhile isDigit r
    have power := exponentLength_le (r.dropWhile isDigit)
    rw [point, List.length_cons] at size
    rw [numberLength_of_point point]
    split <;> omega
  · have power := exponentLength_le (cs.dropWhile isDigit)
    rw [numberLength_of_no_point fun r same => pointed ⟨r, same⟩]
    split <;> omega

theorem closingQuote_le {lastPair : Option Nat} {count n : Nat} {cs : List Char}
    (within : ∀ m, lastPair = some m → m ≤ count + cs.length)
    (h : closingQuote lastPair count cs = some n) : n ≤ count + cs.length := by
  fun_induction closingQuote lastPair count cs with
  | case1 => exact within n h
  | case2 =>
    cases h
    exact Nat.le_refl _
  | case3 => exact within n h
  | case4 lastPair count r ih =>
    simp only [List.length_cons] at within ih ⊢
    have := ih (fun m same => by cases same; omega) h
    omega
  | case5 =>
    cases h
    simp only [List.length_cons]
    omega
  | case6 lastPair count c d r _ ih =>
    simp only [List.length_cons] at within ih ⊢
    have := ih (fun m same => by have := within m same; omega) h
    omega

theorem textLength_le (cs : List Char) : textLength cs ≤ cs.length := by
  rcases cs with _ | ⟨c, r⟩
  · exact Nat.le_refl 0
  by_cases quote : c = '"'
  · subst quote
    rw [textLength_quote, List.length_cons]
    rcases closes : closingQuote none 0 r with _ | n
    · exact Nat.zero_le _
    · have before : ∀ m, (none : Option Nat) = some m → m ≤ 0 + r.length := nofun
      have := closingQuote_le before closes
      simp only [Option.map_some, Option.getD_some]
      omega
  · rw [textLength_of_not_quote quote]
    exact Nat.zero_le _

theorem nameLength_le (cs : List Char) : nameLength cs ≤ cs.length := by
  rcases cs with _ | ⟨c, r⟩
  · exact Nat.le_refl 0
  have rest := run_le isNameChar r
  rw [nameLength, List.length_cons]
  split <;> omega

theorem length_le_of_lexeme? {cs : List Char} {l : Lexeme} (h : lexeme? cs = some l) :
    l.length ≤ cs.length := by
  unfold lexeme? at h
  split at h
  · cases h; exact run_le _ _
  split at h
  · cases h; exact numberLength_le _
  split at h
  · cases h; exact textLength_le _
  split at h
  · cases h; exact nameLength_le _
  · obtain ⟨s, found, rfl⟩ := Option.map_eq_some_iff.1 h
    unfold symbol? at found
    split at found <;> cases found <;> exact Nat.le_add_left _ _

theorem exists_split_of_lexeme? {cs : List Char} {kind? : Option TokenKind} {n : Nat}
    (found : lexeme? cs = some ⟨kind?, n⟩) : ∃ front back, cs = front ++ back ∧ front.length = n :=
  ⟨cs.take n, cs.drop n, (List.take_append_drop ..).symm,
    List.length_take_of_le (length_le_of_lexeme? found)⟩

theorem lexeme?_of_symbol {c : Char} {cs : List Char} {s : Symbol}
    (found : symbol? (c :: cs) = some s) :
    lexeme? (c :: cs) = some ⟨some (.symbol s), s.text.length⟩ := by
  have mark : c ∈ marks := by
    by_contra plain
    rw [symbol?_of_not_mark plain] at found
    cases found
  have others : run isBlank (c :: cs) = 0 ∧ numberLength (c :: cs) = 0 ∧
      textLength (c :: cs) = 0 ∧ nameLength (c :: cs) = 0 := by
    simp only [marks, List.mem_cons, List.not_mem_nil, or_false] at mark
    rcases mark with rfl | rfl | rfl | rfl | rfl | rfl | rfl | rfl | rfl | rfl | rfl | rfl <;>
      exact ⟨rfl, rfl, rfl, rfl⟩
  unfold lexeme?
  rw [others.1, others.2.1, others.2.2.1, others.2.2.2, found]
  rfl

/-! ## Cutting and dividing -/

/-- A scan goes on: no character is left, or a lexeme starts with the first one. -/
def GoesOn (cs : List Char) : Prop := cs = [] ∨ (lexeme? cs).isSome = true

/-- Another text starts with the same lexeme where each kind of lexeme is as long in it, unless it is
longer than this one. -/
theorem lexeme?_of_lengths {cs ds : List Char} {l : Lexeme} (found : lexeme? cs = some l)
    (blank : run isBlank cs ≤ l.length → run isBlank ds = run isBlank cs)
    (number : numberLength cs ≤ l.length → numberLength ds = numberLength cs)
    (text : textLength cs ≤ l.length → textLength ds = textLength cs)
    (name : nameLength cs ≤ l.length → nameLength ds = nameLength cs)
    (symbol : ∀ s, symbol? cs = some s → s.text.length = l.length → symbol? ds = some s) :
    lexeme? ds = some l := by
  unfold lexeme? at found ⊢
  split at found
  · cases found
    rw [blank Nat.le.refl, if_pos ‹_›]
  rw [blank (by omega), if_neg ‹_›]
  split at found
  · cases found
    rw [number Nat.le.refl, if_pos ‹_›]
  rw [number (by omega), if_neg ‹_›]
  split at found
  · cases found
    rw [text Nat.le.refl, if_pos ‹_›]
  rw [text (by omega), if_neg ‹_›]
  split at found
  · cases found
    rw [name Nat.le.refl, if_pos ‹_›]
  rw [name (by omega), if_neg ‹_›]
  obtain ⟨s, mark, rfl⟩ := Option.map_eq_some_iff.1 found
  rw [symbol s mark rfl]
  rfl

/-- A symbol stays where the characters after it do, or no longer symbol can start with it. -/
theorem symbol?_of_next {front cs ds : List Char} {s : Symbol}
    (found : symbol? (front ++ cs) = some s) (length : s.text.length = front.length)
    (next : ds.head? = cs.head? ∨ ∀ d, ds.head? = some d → d ∉ ['>', '=']) :
    symbol? (front ++ ds) = some s := by
  rcases symbol?_cases s with single | pair
  · obtain ⟨c, rfl⟩ := List.length_eq_one_iff.1 (length.symm.trans single)
    exact symbol?_single found single next
  · obtain ⟨c, d, rfl⟩ := List.length_eq_two.1 (length.symm.trans pair)
    exact symbol?_pair found pair

/-- The lexeme at the front stays where the text is cut off, right after it or later. -/
theorem lexeme?_cut {front cs ds : List Char} {kind? : Option TokenKind}
    (found : lexeme? (front ++ (cs ++ ds)) = some ⟨kind?, front.length⟩) :
    lexeme? (front ++ cs) = some ⟨kind?, front.length⟩ := by
  have full : 0 < front.length := length_pos_of_lexeme? found
  rcases front with _ | ⟨c, front⟩
  · cases full
  have head : cs.head? = (cs ++ ds).head? ∨ cs = [] := by cases cs <;> simp
  by_cases quote : c = '"'
  · subst quote
    obtain ⟨rfl, s, quoted, last⟩ := quoted_of_lexeme? found
    rw [quoted]
    refine lexeme?_quotedChars s fun starts => ?_
    obtain ⟨t, rfl⟩ := List.head?_eq_some_iff.1 starts
    exact fun member => last rfl (List.mem_append_left ds member)
  have whole : c :: front ++ (cs ++ ds) = (c :: front ++ cs) ++ ds := by simp
  have within : (c :: front).length ≤ (c :: front ++ cs).length := by simp
  refine lexeme?_of_lengths found ?_ ?_ ?_ ?_ ?_
  · intro short
    rw [whole] at short ⊢
    exact run_cut _ (Nat.le_trans short within)
  · intro short
    rw [whole] at short ⊢
    exact numberLength_cut (Nat.le_trans short within)
  · intro _
    exact (textLength_of_not_quote quote _).trans (textLength_of_not_quote quote _).symm
  · intro short
    rw [whole] at short ⊢
    exact nameLength_cut (by simp) (Nat.le_trans short within)
  · intro s mark length
    refine symbol?_of_next mark length ?_
    rcases head with same | rfl
    · exact Or.inl same
    · exact Or.inr nofun

/-- The lexeme at the front stays where a character is put in, right after it or later, that makes no
token longer, and no blanks where these are the lexeme. -/
theorem lexeme?_divide {front cs : List Char} {kind? : Option TokenKind} {c : Char} (h : Ends c)
    (apart : kind? = none → isBlank c = false)
    (found : lexeme? (front ++ cs) = some ⟨kind?, front.length⟩) (goes : GoesOn cs)
    (ds : List Char) :
    lexeme? (front ++ (cs ++ c :: ds)) = some ⟨kind?, front.length⟩ := by
  have full : 0 < front.length := length_pos_of_lexeme? found
  rcases front with _ | ⟨b, front⟩
  · cases full
  have head : (cs ++ c :: ds).head? = cs.head? ∨ (cs ++ c :: ds).head? = some c := by
    cases cs <;> simp
  by_cases quote : b = '"'
  · subst quote
    obtain ⟨rfl, s, quoted, last⟩ := quoted_of_lexeme? found
    rw [quoted]
    refine lexeme?_quotedChars s fun starts => ?_
    rcases cs with _ | ⟨b, t⟩
    · exact absurd (Option.some.inj starts) h.quote
    · obtain rfl := Option.some.inj starts
      have stuck : lexeme? ('"' :: t) = none := lexeme?_of_last_quote (last rfl)
      simp [GoesOn, stuck] at goes
  have whole : b :: front ++ (cs ++ c :: ds) = (b :: front ++ cs) ++ c :: ds := by simp
  refine lexeme?_of_lengths found ?_ ?_ ?_ ?_ ?_
  · intro _
    rcases kind? with _ | kind
    · rw [whole, run_divide (apart rfl)]
    · have solid := not_blank_of_token found
      exact (run_of_head solid _).trans (run_of_head solid _).symm
  · intro _
    rw [whole, numberLength_divide h]
  · intro _
    exact (textLength_of_not_quote quote _).trans (textLength_of_not_quote quote _).symm
  · intro _
    rw [whole, nameLength_divide h (by simp)]
  · intro s mark length
    refine symbol?_of_next mark length ?_
    rcases head with same | same
    · exact Or.inl same
    · refine Or.inr fun d first => ?_
      rw [same] at first
      exact Option.some.inj first ▸ h.relation

end Worksheet.Formula
