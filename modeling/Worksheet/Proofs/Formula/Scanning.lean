-- A scan, piece by piece. A text can be cut before every token and after it, and pieces are put
-- together where the second one starts with a character that makes no lexeme longer. Each token has
-- its characters where it says, and they neither meet nor overlap.
import Worksheet.Proofs.Formula.Lexemes
import Worksheet.Proofs.Formula.Yield

namespace Worksheet.Formula

/-! ## Scans -/

theorem scanFrom_append (front cs : List Char) (pos : Nat) :
    scanFrom pos front.length (front ++ cs) = scanFrom (pos + front.length) 0 cs := by
  induction front generalizing pos with
  | nil => rfl
  | cons c front ih =>
    rw [List.cons_append, List.length_cons, scanFrom_skip, ih]
    congr 1
    omega

theorem scanFrom_lexeme {front cs : List Char} {kind? : Option TokenKind}
    (found : lexeme? (front ++ cs) = some ⟨kind?, front.length⟩) (pos : Nat) :
    scanFrom pos 0 (front ++ cs) = (scanFrom (pos + front.length) 0 cs).map fun tokens =>
      (kind?.map fun kind => Token.mk kind (.ofList front) pos).toList ++ tokens := by
  have some := length_pos_of_lexeme? found
  rcases front with _ | ⟨c, front⟩
  · cases some
  have later : scanFrom (pos + 1) ((c :: front).length - 1) (front ++ cs) =
      scanFrom (pos + (c :: front).length) 0 cs := by
    rw [List.length_cons, Nat.add_sub_cancel, scanFrom_append]
    congr 1
    omega
  rw [List.cons_append] at found ⊢
  rw [scanFrom_cons, found]
  rcases kind? with _ | kind <;> simp only [later] <;>
    rcases scanFrom (pos + (c :: front).length) 0 cs with _ | tokens
  · rfl
  · rfl
  · rfl
  · rw [← List.cons_append, List.take_left]
    rfl

/-- From a position on, the characters are these tokens, with blanks among them or none. -/
inductive Scanned : Nat → List Char → List Token → Prop
  | done (pos : Nat) : Scanned pos [] []
  | blank {pos : Nat} {front cs : List Char} {ts : List Token}
    (found : lexeme? (front ++ cs) = some ⟨none, front.length⟩)
    (later : Scanned (pos + front.length) cs ts) : Scanned pos (front ++ cs) ts
  | token {pos : Nat} {front cs : List Char} {kind : TokenKind} {ts : List Token}
    (found : lexeme? (front ++ cs) = some ⟨some kind, front.length⟩)
    (later : Scanned (pos + front.length) cs ts) :
    Scanned pos (front ++ cs) (⟨kind, .ofList front, pos⟩ :: ts)

theorem scanned_of_scanFrom {pos : Nat} {cs : List Char} {ts : List Token}
    (h : scanFrom pos 0 cs = .ok ts) : Scanned pos cs ts := by
  induction size : cs.length using Nat.strongRecOn generalizing pos cs ts with
  | ind n ih =>
    subst size
    rcases cs with _ | ⟨c, r⟩
    · cases h
      exact .done pos
    rcases found : lexeme? (c :: r) with _ | ⟨kind?, length⟩
    · rw [scanFrom_cons, found] at h
      cases h
    have taken : 0 < length := length_pos_of_lexeme? found
    obtain ⟨front, rest, whole, rfl⟩ := exists_split_of_lexeme? found
    rw [whole] at found h ih ⊢
    rw [scanFrom_lexeme found] at h
    rcases scanned : scanFrom (pos + front.length) 0 rest with _ | later <;> rw [scanned] at h <;>
      cases h
    have next := ih _ (by rw [List.length_append]; omega) scanned rfl
    rcases kind? with _ | kind
    · exact .blank found next
    · exact .token found next

theorem scanned_iff {pos : Nat} {cs : List Char} {ts : List Token} :
    Scanned pos cs ts ↔ scanFrom pos 0 cs = .ok ts := by
  refine ⟨fun h => ?_, scanned_of_scanFrom⟩
  induction h with
  | done => rfl
  | blank found later ih =>
    rw [scanFrom_lexeme found, ih]
    rfl
  | token found later ih =>
    rw [scanFrom_lexeme found, ih]
    rfl

variable {pos : Nat} {cs : List Char} {ts front back : List Token} {t : Token}

theorem Scanned.scan_eq (h : Scanned 0 cs ts) {text : String} (chars : text.toList = cs) :
    scan text = .ok ts := by
  rw [scan, chars]
  exact scanned_iff.1 h

theorem Scanned.goesOn (h : Scanned pos cs ts) : GoesOn cs := by
  cases h with
  | done => exact Or.inl rfl
  | blank found later => exact Or.inr (by rw [found]; rfl)
  | token found later => exact Or.inr (by rw [found]; rfl)

/-! ## Where tokens stand -/

theorem Scanned.exists_text (h : Scanned pos cs ts) (member : t ∈ ts) :
    ∃ before after, cs = before ++ (t.text.toList ++ after) ∧ t.start = pos + before.length ∧
      0 < t.text.length := by
  induction h with
  | done => cases member
  | @blank pos blanks cs ts found later ih =>
    obtain ⟨before, after, rfl, start, full⟩ := ih member
    refine ⟨blanks ++ before, after, by simp, ?_, full⟩
    rw [start, List.length_append]
    omega
  | @token pos first cs kind ts found later ih =>
    rcases List.mem_cons.1 member with rfl | member
    · exact ⟨[], cs, by simp, rfl, by simpa using length_pos_of_lexeme? found⟩
    · obtain ⟨before, after, rfl, start, full⟩ := ih member
      refine ⟨first ++ before, after, by simp, ?_, full⟩
      rw [start, List.length_append]
      omega

theorem slice_append (before inside after : List Char) :
    slice (before ++ (inside ++ after)) before.length (before.length + inside.length) = inside := by
  rw [slice, List.drop_left, Nat.add_sub_cancel_left, List.take_left]

theorem Scanned.slice_eq (h : Scanned 0 cs ts) (member : t ∈ ts) :
    slice cs t.start t.stop = t.text.toList := by
  obtain ⟨before, after, rfl, start, _⟩ := h.exists_text member
  have stop : t.stop = before.length + t.text.toList.length := by
    rw [Token.stop, start, Nat.zero_add, String.length_toList]
  rw [stop, start, Nat.zero_add, slice_append]

/-- Tokens that stand one after the other, each of some length. -/
structure InOrder (ts : List Token) : Prop where
  full : ∀ t ∈ ts, t.start < t.stop
  apart : ts.Pairwise fun t u => t.stop ≤ u.start

theorem Scanned.within (h : Scanned pos cs ts) (member : t ∈ ts) :
    pos ≤ t.start ∧ t.start < t.stop ∧ t.stop ≤ pos + cs.length := by
  obtain ⟨before, after, rfl, start, full⟩ := h.exists_text member
  rw [Token.stop]
  simp only [List.length_append, String.length_toList]
  omega

theorem Scanned.inOrder (h : Scanned pos cs ts) : InOrder ts where
  full t member := (h.within member).2.1
  apart := by
    induction h with
    | done => exact .nil
    | blank found later ih => exact ih
    | token found later ih =>
      refine .cons (fun u member => ?_) ih
      have next := (later.within member).1
      simpa [Token.stop] using next

theorem InOrder.sublist {us : List Token} (h : InOrder ts) (fewer : us.Sublist ts) :
    InOrder us where
  full t member := h.full t (fewer.mem member)
  apart := h.apart.sublist fewer

/-! ## Cutting -/

/-- A text can be cut before a token. -/
theorem Scanned.cut_before (h : Scanned pos cs (front ++ t :: back)) :
    ∃ before after, cs = before ++ after ∧ t.start = pos + before.length ∧
      Scanned pos before front ∧ Scanned t.start after (t :: back) := by
  generalize same : front ++ t :: back = ts at h
  induction h generalizing front with
  | done => simp at same
  | @blank pos blanks cs ts found later ih =>
    obtain ⟨before, after, rfl, start, first, second⟩ := ih same
    refine ⟨blanks ++ before, after, by simp, ?_, ?_, second⟩
    · rw [start, List.length_append, Nat.add_assoc]
    · exact .blank (lexeme?_cut found) first
  | @token pos chars cs kind ts found later ih =>
    rcases front with _ | ⟨u, front⟩
    · cases same
      exact ⟨[], chars ++ cs, rfl, rfl, .done pos, .token found later⟩
    · cases same
      obtain ⟨before, after, rfl, start, first, second⟩ := ih rfl
      refine ⟨chars ++ before, after, by simp, ?_, ?_, second⟩
      · rw [start, List.length_append, Nat.add_assoc]
      · exact .token (lexeme?_cut found) first

theorem Scanned.cut_after (h : Scanned pos cs (front ++ t :: back)) :
    ∃ before after, cs = before ++ after ∧ t.stop = pos + before.length ∧
      Scanned pos before (front ++ [t]) ∧ Scanned t.stop after back := by
  generalize same : front ++ t :: back = ts at h
  induction h generalizing front with
  | done => simp at same
  | @blank pos blanks cs ts found later ih =>
    obtain ⟨before, after, rfl, stop, first, second⟩ := ih same
    refine ⟨blanks ++ before, after, by simp, ?_, ?_, second⟩
    · rw [stop, List.length_append, Nat.add_assoc]
    · exact .blank (lexeme?_cut found) first
  | @token pos chars cs kind ts found later ih =>
    rcases front with _ | ⟨u, front⟩
    · cases same
      have alone : lexeme? (chars ++ []) = some ⟨some kind, chars.length⟩ :=
        lexeme?_cut found
      have first := Scanned.token alone (.done (pos + chars.length))
      have stop : Token.stop ⟨kind, .ofList chars, pos⟩ = pos + chars.length := by
        simp [Token.stop]
      rw [List.append_nil] at first
      exact ⟨chars, cs, rfl, stop, first, stop ▸ later⟩
    · cases same
      obtain ⟨before, after, rfl, stop, first, second⟩ := ih rfl
      refine ⟨chars ++ before, after, by simp, ?_, ?_, second⟩
      · rw [stop, List.length_append, Nat.add_assoc]
      · exact .token (lexeme?_cut found) first

/-! ## Putting together -/

/-- Two pieces are scanned into the tokens of both, where the second one starts with a character that
makes no lexeme longer. -/
theorem Scanned.append {c : Char} {ds : List Char} {us : List Token} (h : Scanned pos cs ts)
    (divides : Divides c) (later : Scanned (pos + cs.length) (c :: ds) us) :
    Scanned pos (cs ++ c :: ds) (ts ++ us) := by
  induction h with
  | done => exact later
  | blank found next ih =>
    rw [List.length_append, ← Nat.add_assoc] at later
    rw [List.append_assoc]
    exact .blank (lexeme?_divide divides.toEnds (fun _ => divides.blank) found next.goesOn ds) (ih later)
  | token found next ih =>
    rw [List.length_append, ← Nat.add_assoc] at later
    rw [List.append_assoc]
    exact .token (lexeme?_divide divides.toEnds (fun _ => divides.blank) found next.goesOn ds) (ih later)

theorem Scanned.symbol {c : Char} {s : Symbol} (h : Scanned (pos + 1) cs ts)
    (found : symbol? (c :: cs) = some s) (text : s.text = .ofList [c]) :
    Scanned pos (c :: cs) (s.token pos :: ts) := by
  have length : s.text.length = [c].length := by rw [text, String.length_ofList]
  have lexeme : lexeme? ([c] ++ cs) = some ⟨some (.symbol s), [c].length⟩ :=
    length ▸ lexeme?_of_symbol found
  rw [Symbol.token, text]
  exact .token lexeme h

/-! ## Moving -/

def Token.move (m : Nat → Nat) (t : Token) : Token := { t with start := m t.start }

@[simp] theorem Token.start_move (m : Nat → Nat) (t : Token) : (t.move m).start = m t.start := rfl

@[simp] theorem Token.kind_move (m : Nat → Nat) (t : Token) : (t.move m).kind = t.kind := rfl

/-- A text is scanned in the same way wherever it starts. -/
theorem Scanned.move (h : Scanned pos cs ts) {m : Nat → Nat}
    (shifts : ∀ n, m (pos + n) = m pos + n) : Scanned (m pos) cs (ts.map (.move m)) := by
  induction h with
  | done => exact .done _
  | @blank pos blanks cs ts found later ih =>
    have next := ih fun n => by rw [Nat.add_assoc, shifts, shifts, Nat.add_assoc]
    rw [shifts] at next
    exact .blank found next
  | @token pos chars cs kind ts found later ih =>
    have next := ih fun n => by rw [Nat.add_assoc, shifts, shifts, Nat.add_assoc]
    rw [shifts] at next
    exact .token found next

end Worksheet.Formula
