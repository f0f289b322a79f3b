-- A scan turn by turn. Each turn takes the lexeme at the place where the last one ended. Where the
-- scan ends with the text, the tokens are all of it but blanks; where it ends before, no lexeme
-- starts there, and what it has found are the tokens of the text before that place.
import Worksheet.Proofs.Formula.Spacing

namespace Worksheet.Formula

open Worksheet.Text (double isBlank isDigit)

/-! ## The forms of lexemes -/

/-- The characters have the form of a lexeme, of blanks or of a token of some kind. -/
def Fits (cs : List Char) : Option TokenKind → Prop
  | none => cs ≠ [] ∧ ∀ c ∈ cs, isBlank c = true
  | some .number => ∃ whole point fraction power, IsNumeral isDigit cs whole point fraction power
  | some .text => ∃ s, cs = quotedChars s
  | some .name => ∃ c r, cs = c :: r ∧ isNameStart c = true ∧ ∀ d ∈ r, isNameChar d = true
  | some (.symbol s) => cs = s.text.toList

theorem eq_takeWhile_of_run {p : Char → Bool} {front cs : List Char}
    (length : run p (front ++ cs) = front.length) : front = (front ++ cs).takeWhile p := by
  rw [← take_run, length, List.take_left]

theorem fits_of_lexeme? {front cs : List Char} {kind? : Option TokenKind}
    (found : lexeme? (front ++ cs) = some ⟨kind?, front.length⟩) : Fits front kind? := by
  have full : 0 < front.length := length_pos_of_lexeme? found
  rcases front with _ | ⟨c, front⟩
  · cases full
  by_cases quote : c = '"'
  · subst quote
    obtain ⟨rfl, s, quoted, _⟩ := quoted_of_lexeme? found
    exact ⟨s, quoted⟩
  unfold lexeme? at found
  split at found
  · simp only [Option.some.injEq, Lexeme.mk.injEq] at found
    obtain ⟨rfl, length⟩ := found
    refine ⟨by simp, ?_⟩
    rw [eq_takeWhile_of_run length]
    exact all_takeWhile _ _
  split at found
  · rename_i some
    simp only [Option.some.injEq, Lexeme.mk.injEq] at found
    obtain ⟨rfl, length⟩ := found
    have numeral := isNumeral_take some
    rw [length, List.take_left] at numeral
    exact numeral
  rw [List.cons_append, textLength_of_not_quote quote] at found
  split at found
  · rename_i some
    cases some
  split at found
  · rename_i some
    simp only [Option.some.injEq, Lexeme.mk.injEq] at found
    obtain ⟨rfl, length⟩ := found
    rw [nameLength] at some length
    split at some
    · rename_i starts
      rw [if_pos starts, List.length_cons, Nat.add_comm] at length
      refine ⟨c, front, rfl, starts, ?_⟩
      rw [eq_takeWhile_of_run (Nat.succ.inj length)]
      exact all_takeWhile _ _
    · cases some
  · obtain ⟨s, mark, same⟩ := Option.map_eq_some_iff.1 found
    simp only [Lexeme.mk.injEq] at same
    obtain ⟨rfl, length⟩ := same
    have text := symbol?_text mark
    rw [length, ← List.cons_append, List.take_left] at text
    rw [Fits, ← text, String.toList_ofList]

theorem lengths_of_lexeme?_eq_none {cs : List Char} (stuck : lexeme? cs = none) :
    run isBlank cs = 0 ∧ numberLength cs = 0 ∧ textLength cs = 0 ∧ nameLength cs = 0 ∧
      symbol? cs = none := by
  unfold lexeme? at stuck
  split at stuck
  · cases stuck
  split at stuck
  · cases stuck
  split at stuck
  · cases stuck
  split at stuck
  · cases stuck
  · exact ⟨by omega, by omega, by omega, by omega, Option.map_eq_none_iff.1 stuck⟩

theorem run_pos {p : Char → Bool} {c : Char} (h : p c = true) (cs : List Char) :
    0 < run p (c :: cs) := by
  simp [run, h]

theorem IsNumeral.numberLength_pos {front whole point fraction power : List Char}
    (h : IsNumeral isDigit front whole point fraction power) (cs : List Char) :
    0 < numberLength (front ++ cs) := by
  obtain ⟨rfl, pointed, nonempty, allWhole, allFraction, _⟩ := h
  rcases whole with _ | ⟨d, whole⟩
  -- A number that starts with its point has digits after it.
  · obtain ⟨d, fraction, rfl⟩ := List.exists_cons_of_ne_nil (nonempty.resolve_left (by simp))
    obtain rfl : point = ['.'] := by simpa using pointed
    have digits : 0 < run isDigit (d :: (fraction ++ (power ++ cs))) :=
      run_pos (allFraction d (List.mem_cons_self ..)) _
    have point : ([] ++ (['.'] ++ (d :: fraction ++ power)) ++ cs).dropWhile isDigit =
        '.' :: (d :: (fraction ++ (power ++ cs))) := by
      have other : isDigit '.' = false := by decide
      simp [other]
    rw [numberLength_of_point point, if_neg (by omega)]
    omega
  · have first : isDigit d = true := allWhole d (List.mem_cons_self ..)
    exact Nat.lt_of_lt_of_le (run_pos first _) (run_le_numberLength _)

theorem not_mem_of_closingQuote {lastPair : Option Nat} {count : Nat} {cs : List Char}
    (h : closingQuote lastPair count cs = none) : lastPair = none ∧ '"' ∉ cs := by
  fun_induction closingQuote lastPair count cs with
  | case1 => exact ⟨h, List.not_mem_nil⟩
  | case2 => cases h
  | case3 lastPair count c other => exact ⟨h, by simpa using Ne.symm other⟩
  | case4 lastPair count r ih => cases (ih h).1
  | case5 => cases h
  | case6 lastPair count c d r other ih =>
    obtain ⟨none, later⟩ := ih h
    exact ⟨none, List.not_mem_cons_of_ne_of_not_mem (Ne.symm other) later⟩

theorem textLength_quotedChars_pos (s cs : List Char) : 0 < textLength (quotedChars s ++ cs) := by
  have split : quotedChars s ++ cs = '"' :: (double s ++ '"' :: cs) := by simp [quotedChars]
  rw [split, textLength_quote]
  rcases closes : closingQuote none 0 (double s ++ '"' :: cs) with _ | n
  · exact absurd (by simp) (not_mem_of_closingQuote closes).2
  · simp only [Option.map_some, Option.getD_some]
    omega

theorem symbol?_of_mark {c : Char} (mark : c ∈ marks) (r : List Char) :
    (symbol? (c :: r)).isSome = true := by
  unfold symbol?
  split
  case h_16 => simp_all [marks]
  all_goals rfl

theorem not_fits_of_lexeme? {front cs : List Char} (stuck : lexeme? (front ++ cs) = none)
    (kind? : Option TokenKind) : ¬ Fits front kind? := by
  obtain ⟨blank, number, text, name, symbol⟩ := lengths_of_lexeme?_eq_none stuck
  intro fits
  rcases kind? with _ | _ | _ | _ | s
  case none =>
    obtain ⟨c, r, rfl⟩ := List.exists_cons_of_ne_nil fits.1
    exact Nat.ne_of_gt (run_pos (fits.2 c (List.mem_cons_self ..)) _) blank
  case number =>
    obtain ⟨_, _, _, _, numeral⟩ := fits
    exact Nat.ne_of_gt (numeral.numberLength_pos cs) number
  case text =>
    obtain ⟨s, rfl⟩ := fits
    exact Nat.ne_of_gt (textLength_quotedChars_pos s cs) text
  case name =>
    obtain ⟨c, r, rfl, starts, _⟩ := fits
    rw [List.cons_append, nameLength, if_pos starts] at name
    omega
  case symbol =>
    obtain rfl : front = s.text.toList := fits
    have found : (symbol? (s.text.toList ++ cs)).isSome = true := by
      cases s <;> exact symbol?_of_mark (by decide) _
    rw [symbol] at found
    cases found

/-! ## Turns -/

/-- A scan on its way: the tokens that it has found, and the position where it goes on. -/
structure Cursor where
  found : List Token
  pos : Nat

namespace Cursor

def start : Cursor := ⟨[], 0⟩

/-- One turn takes the lexeme at the position. There is none where the text ends, and where no
lexeme starts. -/
def next? (cs : List Char) (k : Cursor) : Option Cursor :=
  (lexeme? (cs.drop k.pos)).map fun l =>
    let chars := (cs.drop k.pos).take l.length
    let token? := l.kind?.map fun kind => Token.mk kind (.ofList chars) k.pos
    ⟨k.found ++ token?.toList, k.pos + l.length⟩

def after? (cs : List Char) : Nat → Cursor → Option Cursor
  | 0, k => some k
  | turns + 1, k => (k.next? cs).bind (after? cs turns)

/-- What the scan has found are the tokens before the position, and stays so whatever part of the
text is left after it. -/
structure Sound (cs : List Char) (k : Cursor) : Prop where
  within : k.pos ≤ cs.length
  scans : ∀ ds, ds <+: cs.drop k.pos →
    scanFrom 0 0 (cs.take k.pos ++ ds) = (scanFrom k.pos 0 ds).map (k.found ++ ·)

theorem sound_start (cs : List Char) : start.Sound cs where
  within := Nat.zero_le _
  scans ds _ := by
    change scanFrom 0 0 ds = (scanFrom 0 0 ds).map fun ts => ts
    cases scanFrom 0 0 ds <;> rfl

variable {cs : List Char} {k m : Cursor}

theorem exists_taken (turn : k.next? cs = some m) :
    ∃ front back kind?, cs.drop k.pos = front ++ back ∧
      lexeme? (front ++ back) = some ⟨kind?, front.length⟩ ∧
      m = ⟨k.found ++ (kind?.map fun kind => Token.mk kind (.ofList front) k.pos).toList,
        k.pos + front.length⟩ := by
  obtain ⟨⟨kind?, length⟩, found, rfl⟩ := Option.map_eq_some_iff.1 turn
  obtain ⟨front, back, rest, rfl⟩ := exists_split_of_lexeme? found
  refine ⟨front, back, kind?, rest, rest ▸ found, ?_⟩
  rw [rest, List.take_left]

/-- A turn gets further, and what it finds is found for good: the lexeme that it takes stays where
the text is cut off after it. -/
theorem Sound.next (h : k.Sound cs) (turn : k.next? cs = some m) : m.Sound cs ∧ k.pos < m.pos := by
  obtain ⟨front, back, kind?, rest, found, rfl⟩ := exists_taken turn
  have full : 0 < front.length := length_pos_of_lexeme? found
  have left : cs.drop (k.pos + front.length) = back := by
    rw [← List.drop_drop, rest, List.drop_left]
  have taken : cs.take (k.pos + front.length) = cs.take k.pos ++ front := by
    rw [List.take_add, rest, List.take_left]
  refine ⟨⟨?_, ?_⟩, Nat.lt_add_of_pos_right full⟩
  · have size := congrArg List.length rest
    have within := h.within
    rw [List.length_drop, List.length_append] at size
    simp only
    omega
  · rintro ds ⟨tail, whole⟩
    rw [left] at whole
    subst whole
    have before := h.scans (front ++ ds) ⟨tail, by rw [rest, List.append_assoc]⟩
    rw [taken, List.append_assoc, before, scanFrom_lexeme (lexeme?_cut found)]
    rcases scanFrom (k.pos + front.length) 0 ds with _ | ts
    · rfl
    · simp [Except.map]

theorem Sound.after (h : k.Sound cs) {turns : Nat} (run : k.after? cs turns = some m) :
    m.Sound cs := by
  induction turns generalizing k with
  | zero =>
    cases run
    exact h
  | succ turns ih =>
    obtain ⟨j, turn, run⟩ := Option.bind_eq_some_iff.1 run
    exact ih (h.next turn).1 run

/-- A scan ends, after no more turns than there are characters left. -/
theorem Sound.exists_end (h : k.Sound cs) :
    ∃ turns m, turns + k.pos ≤ cs.length ∧ k.after? cs turns = some m ∧ m.next? cs = none := by
  induction left : cs.length - k.pos using Nat.strongRecOn generalizing k with
  | ind n ih =>
    rcases turn : k.next? cs with _ | j
    · exact ⟨0, k, by have := h.within; omega, rfl, turn⟩
    · obtain ⟨sound, further⟩ := h.next turn
      have within := sound.within
      obtain ⟨turns, m, few, run, ended⟩ := ih (cs.length - j.pos) (by omega) sound rfl
      refine ⟨turns + 1, m, by omega, ?_, ended⟩
      rw [after?, turn]
      exact run

end Cursor

/-! ## What is covered -/

/-- The tokens are all of a text but blanks: each has some length and comes after the one before it,
is what stands in its span, and has the form of its kind, and what is in no span is blank. -/
structure Covers (cs : List Char) (ts : List Token) : Prop where
  inOrder : InOrder ts
  within : ∀ t ∈ ts, t.stop ≤ cs.length
  slices : ∀ t ∈ ts, t.text.toList = slice cs t.start t.stop
  fits : ∀ t ∈ ts, Fits t.text.toList (some t.kind)
  outside : ∀ pos c, cs[pos]? = some c → (∀ t ∈ ts, ¬ (t.start ≤ pos ∧ pos < t.stop)) →
    isBlank c = true

variable {pos : Nat} {cs : List Char} {ts : List Token}

theorem Scanned.blank_outside (h : Scanned pos cs ts) {n : Nat} {c : Char} (here : cs[n]? = some c)
    (outside : ∀ t ∈ ts, ¬ (t.start ≤ pos + n ∧ pos + n < t.stop)) : isBlank c = true := by
  induction h generalizing n with
  | done => simp at here
  | @blank pos front cs ts found later ih =>
    by_cases inside : n < front.length
    · rw [List.getElem?_append_left inside] at here
      exact (fits_of_lexeme? found).2 c (List.mem_of_getElem? here)
    · rw [List.getElem?_append_right (by omega)] at here
      refine ih here fun t member => ?_
      have := outside t member
      omega
  | @token pos front cs kind ts found later ih =>
    have stop : Token.stop ⟨kind, .ofList front, pos⟩ = pos + front.length := by
      simp [Token.stop]
    by_cases inside : n < front.length
    · refine absurd ?_ (outside _ (List.mem_cons_self ..))
      rw [stop]
      simp only
      omega
    · rw [List.getElem?_append_right (by omega)] at here
      refine ih here fun t member => ?_
      have := outside t (List.mem_cons_of_mem _ member)
      omega

theorem Scanned.covers (h : Scanned 0 cs ts) : Covers cs ts where
  inOrder := h.inOrder
  within t member := Nat.zero_add cs.length ▸ (h.within member).2.2
  slices t member := (h.slice_eq member).symm
  fits t member := by
    have found : lexeme? (t.text.toList ++ []) = some ⟨some t.kind, t.text.toList.length⟩ := by
      rw [List.append_nil]
      exact h.lone t member
    exact fits_of_lexeme? found
  outside n c here outside := h.blank_outside here (by simpa using outside)

/-- A scan goes through a text turn by turn, and ends after no more turns than there are characters.
Either it ends with the text, and what it has found are its tokens: each has some length, comes
after the one before it and is what stands in its span, and all else is blank. Or it ends before, at
a character with which nothing starts that has the form of a lexeme. Then it names that character
and its place, and has found the tokens of the text before it. -/
theorem scanning_loses_nothing (text : String) :
    ∃ turns ≤ text.length, ∃ last, Cursor.start.after? text.toList turns = some last ∧
      last.next? text.toList = none ∧
      ((scan text = .ok last.found ∧ Covers text.toList last.found) ∨
        ∃ c, text.toList[last.pos]? = some c ∧ scan text = .error (.strayChar c last.pos) ∧
          scan (.ofList (text.toList.take last.pos)) = .ok last.found ∧
          ∀ front kind?, front <+: text.toList.drop last.pos → ¬ Fits front kind?) := by
  obtain ⟨turns, last, few, run, ended⟩ := (Cursor.sound_start text.toList).exists_end
  have sound := (Cursor.sound_start text.toList).after run
  rw [String.length_toList] at few
  refine ⟨turns, few, last, run, ended, ?_⟩
  have stuck : lexeme? (text.toList.drop last.pos) = none := Option.map_eq_none_iff.1 ended
  have before : scanFrom 0 0 (text.toList.take last.pos) = .ok last.found := by
    have cut := sound.scans [] List.nil_prefix
    simpa [Except.map, scanFrom_nil] using cut
  rcases rest : text.toList.drop last.pos with _ | ⟨c, r⟩
  · left
    rw [List.take_of_length_le (List.drop_eq_nil_iff.1 rest)] at before
    exact ⟨before, (scanned_of_scanFrom before).covers⟩
  · right
    have whole := sound.scans _ (List.prefix_refl _)
    rw [List.take_append_drop, rest, scanFrom_cons, ← rest, stuck] at whole
    refine ⟨c, ?_, whole, ?_, ?_⟩
    · rw [← List.head?_drop, rest, List.head?_cons]
    · rw [scan, String.toList_ofList]
      exact before
    · rintro front kind? ⟨back, same⟩
      exact not_fits_of_lexeme? (by rw [same, ← rest, stuck]) kind?

/-- A text that is open ends in its last pair of quotes. No lexeme starts with the second of them,
and what is before it is scanned. -/
theorem scanning_loses_nothing_of_an_open_text :
    scan "=a1&\"x\"\"y" = .error (.strayChar '"' 7) ∧
      scan "=a1&\"x\"" = .ok [Symbol.equal.token 0, ⟨.name, "a1", 1⟩, Symbol.join.token 3,
        ⟨.text, "\"x\"", 4⟩] ∧
      ∀ front kind?, front <+: ['"', 'y'] → ¬ Fits front kind? := by
  have stopped : scan "=a1&\"x\"\"y" = .error (.strayChar '"' 7) := by rfl
  have front : scan "=a1&\"x\"" = .ok [Symbol.equal.token 0, ⟨.name, "a1", 1⟩,
      Symbol.join.token 3, ⟨.text, "\"x\"", 4⟩] := by rfl
  obtain ⟨_, _, last, _, _, ⟨ended, _⟩ | ⟨c, _, refused, _, none⟩⟩ :=
    scanning_loses_nothing "=a1&\"x\"\"y"
  · cases stopped.symm.trans ended
  · have place : last.pos = 7 := by
      have same := stopped.symm.trans refused
      simp only [Except.error.injEq, ParseError.strayChar.injEq] at same
      exact same.2.symm
    rw [place] at none
    exact ⟨stopped, front, none⟩

end Worksheet.Formula
