-- Formulas whose names are spelled with other letters, small ones for large ones or the other way.
-- The scanner sees the case of no letter, so it finds the same tokens at the same places, and the
-- two trees are alike: they name the same cells, and come to the same.
import Mathlib.Data.List.Forall2
import Worksheet.Proofs.Formula.Grammar
import Worksheet.Proofs.Formula.Results
import Worksheet.Proofs.Formula.Scanning
import Worksheet.Proofs.Text.Letters

namespace Worksheet.Formula

open Worksheet.Text

/-! ## Lexemes -/

theorem isBlank_toUpper : ∀ c : Char, isBlank c.toUpper = isBlank c :=
  toUpper_congr (by decide +kernel)

theorem isDigit_toUpper : ∀ c : Char, isDigit c.toUpper = isDigit c :=
  toUpper_congr (by decide +kernel)

theorem isNameStart_toUpper : ∀ c : Char, isNameStart c.toUpper = isNameStart c :=
  toUpper_congr (by decide)

theorem isNameChar_toUpper : ∀ c : Char, isNameChar c.toUpper = isNameChar c :=
  toUpper_congr (by decide)

theorem run_map_toUpper {p : Char → Bool} (blind : ∀ c, p (Char.toUpper c) = p c)
    (cs : List Char) : run p (cs.map Char.toUpper) = run p cs := by
  rw [run, takeWhile_map_toUpper blind, List.length_map, run]

theorem exponentLength_map_toUpper (cs : List Char) :
    exponentLength (cs.map Char.toUpper) = exponentLength cs := by
  cases cs with
  | nil => rfl
  | cons c r =>
    have letter := toUpper_congr (f := fun c => decide (c = 'e' ∨ c = 'E')) (by decide) c
    have plus := toUpper_eq_iff (d := '+') (by decide)
    have minus := toUpper_eq_iff (d := '-') (by decide)
    have signed : ((r.map Char.toUpper).head? = some '+' ∨ (r.map Char.toUpper).head? = some '-') ↔
        (r.head? = some '+' ∨ r.head? = some '-') := by
      cases r <;> simp [plus, minus]
    simp only [List.map_cons, exponentLength, decide_eq_decide.1 letter, signed, ← List.map_drop,
      run_map_toUpper isDigit_toUpper]

theorem numberLength_map_toUpper (cs : List Char) :
    numberLength (cs.map Char.toUpper) = numberLength cs := by
  have rest := dropWhile_map_toUpper isDigit_toUpper cs
  by_cases dot : ∃ r, cs.dropWhile isDigit = '.' :: r
  · obtain ⟨r, point⟩ := dot
    have point' : (cs.map Char.toUpper).dropWhile isDigit = '.' :: r.map Char.toUpper := by
      rw [rest, point]
      rfl
    rw [numberLength_of_point point, numberLength_of_point point',
      dropWhile_map_toUpper isDigit_toUpper, exponentLength_map_toUpper,
      run_map_toUpper isDigit_toUpper, run_map_toUpper isDigit_toUpper]
  · have plain : ∀ r, cs.dropWhile isDigit ≠ '.' :: r := fun r h => dot ⟨r, h⟩
    have plain' : ∀ r, (cs.map Char.toUpper).dropWhile isDigit ≠ '.' :: r := by
      intro r h
      rw [rest] at h
      obtain ⟨c, r', first, same, _⟩ := List.map_eq_cons_iff.1 h
      exact plain r' ((toUpper_eq_iff (by decide) c).1 same ▸ first)
    rw [numberLength_of_no_point plain, numberLength_of_no_point plain', rest,
      run_map_toUpper isDigit_toUpper, exponentLength_map_toUpper]

theorem closingQuote_map_toUpper (lastPair : Option Nat) (count : Nat) (cs : List Char) :
    closingQuote lastPair count (cs.map Char.toUpper) = closingQuote lastPair count cs := by
  have quote := toUpper_eq_iff (d := '"') (by decide)
  fun_induction closingQuote lastPair count cs with
  | case1 => rfl
  | _ => simp_all [closingQuote]

theorem textLength_map_toUpper (cs : List Char) :
    textLength (cs.map Char.toUpper) = textLength cs := by
  rcases cs with _ | ⟨c, r⟩
  · rfl
  · by_cases quote : c = '"'
    · subst quote
      have inside := closingQuote_map_toUpper none 0 r
      change textLength ('"' :: r.map Char.toUpper) = _
      rw [textLength_quote, textLength_quote, inside]
    · have quote' : c.toUpper ≠ '"' := fun h => quote ((toUpper_eq_iff (by decide) c).1 h)
      rw [List.map_cons, textLength_of_not_quote quote, textLength_of_not_quote quote']

theorem nameLength_map_toUpper (cs : List Char) :
    nameLength (cs.map Char.toUpper) = nameLength cs := by
  cases cs with
  | nil => rfl
  | cons c r =>
    simp only [List.map_cons, nameLength, isNameStart_toUpper, run_map_toUpper isNameChar_toUpper]

theorem symbol?_map_toUpper (cs : List Char) : symbol? (cs.map Char.toUpper) = symbol? cs := by
  rcases cs with _ | ⟨c, r⟩
  · rfl
  rw [List.map_cons]
  by_cases mark : c ∈ marks
  · have greater := toUpper_eq_iff (d := '>') (by decide)
    have equal := toUpper_eq_iff (d := '=') (by decide)
    simp only [marks, List.mem_cons, List.not_mem_nil, or_false] at mark
    rcases mark with rfl | less | more | rfl | rfl | rfl | rfl | rfl | rfl | rfl | rfl | rfl
    -- Only after these two the next character counts.
    case inr.inl =>
      subst less
      rcases r with _ | ⟨d, r⟩
      · rfl
      · by_cases isGreater : d = '>'
        · subst isGreater
          rfl
        · by_cases isEqual : d = '='
          · subst isEqual
            rfl
          · rw [symbol?_less isGreater isEqual]
            exact symbol?_less (mt (greater d).1 isGreater) (mt (equal d).1 isEqual) _
    case inr.inr.inl =>
      subst more
      rcases r with _ | ⟨d, r⟩
      · rfl
      · by_cases isEqual : d = '='
        · subst isEqual
          rfl
        · rw [symbol?_greater isEqual]
          exact symbol?_greater (mt (equal d).1 isEqual) _
    all_goals rfl
  · have mark' : c.toUpper ∉ marks := by
      have same := toUpper_congr (f := fun c => decide (c ∈ marks)) (by decide) c
      exact fun h => mark ((decide_eq_decide.1 same).1 h)
    rw [symbol?_of_not_mark mark, symbol?_of_not_mark mark']

/-- The scanner does not see the case of letters. -/
theorem lexeme?_map_toUpper (cs : List Char) : lexeme? (cs.map Char.toUpper) = lexeme? cs := by
  unfold lexeme?
  rw [run_map_toUpper isBlank_toUpper, numberLength_map_toUpper, textLength_map_toUpper,
    nameLength_map_toUpper, symbol?_map_toUpper]

/-! ## Spelling names with other letters -/

/-- The second text is the first with other letters in its names, small ones for large ones or the
other way. Each lexeme that the scanner takes off the front stays, or where it is a name keeps its
letters. Where none starts, as at the end, the scanner stops, and all that is left keeps its
letters. -/
inductive Respelled : List Char → List Char → Prop
  | rest {cs ds : List Char} (none : lexeme? cs = none) (same : SameLetters cs ds) : Respelled cs ds
  | name {front front' cs ds : List Char}
    (found : lexeme? (front ++ cs) = some ⟨some .name, front.length⟩)
    (same : SameLetters front front') (later : Respelled cs ds) :
    Respelled (front ++ cs) (front' ++ ds)
  | other {front cs ds : List Char} {kind? : Option TokenKind}
    (found : lexeme? (front ++ cs) = some ⟨kind?, front.length⟩) (other : kind? ≠ some .name)
    (later : Respelled cs ds) : Respelled (front ++ cs) (front ++ ds)

theorem Respelled.sameLetters {cs ds : List Char} (h : Respelled cs ds) : SameLetters cs ds := by
  induction h with
  | rest none same => exact same
  | name found same later ih => exact same.append ih
  | other found other later ih => exact SameLetters.append rfl ih

theorem Respelled.symm {cs ds : List Char} (h : Respelled cs ds) : Respelled ds cs := by
  induction h with
  | rest none same => exact .rest (same.congr lexeme?_map_toUpper ▸ none) same.symm
  | name found same later ih =>
    rw [(same.append later.sameLetters).congr lexeme?_map_toUpper, same.length_eq] at found
    exact .name found same.symm ih
  | @other front cs ds kind? found other later ih =>
    have alike : SameLetters (front ++ cs) (front ++ ds) := SameLetters.append rfl later.sameLetters
    rw [alike.congr lexeme?_map_toUpper] at found
    exact .other found other ih

/-- Whether the second text is the first with other letters in its names. The first has `fuel`
characters at most. -/
def respells : Nat → List Char → List Char → Bool
  | 0, cs, ds => cs.isEmpty && ds.isEmpty
  | fuel + 1, cs, ds =>
    match lexeme? cs with
    | none => decide (SameLetters cs ds)
    | some ⟨kind?, length⟩ =>
      let front := cs.take length
      let front' := ds.take length
      decide (front.length = length ∧ SameLetters front front' ∧
        (kind? ≠ some .name → front = front')) &&
        respells fuel (cs.drop length) (ds.drop length)

theorem respelled_of_respells {fuel : Nat} {cs ds : List Char}
    (h : respells fuel cs ds = true) : Respelled cs ds := by
  induction fuel generalizing cs ds with
  | zero =>
    simp only [respells, Bool.and_eq_true, List.isEmpty_iff] at h
    obtain ⟨rfl, rfl⟩ := h
    exact .rest rfl rfl
  | succ fuel ih =>
    unfold respells at h
    split at h
    · rename_i none
      exact .rest none (of_decide_eq_true h)
    · rename_i kind? n found
      simp only [Bool.and_eq_true, decide_eq_true_iff] at h
      obtain ⟨⟨length, same, text⟩, later⟩ := h
      have found' : lexeme? (cs.take n ++ cs.drop n) = some ⟨kind?, (cs.take n).length⟩ := by
        rw [List.take_append_drop, length, found]
      rw [← cs.take_append_drop n, ← ds.take_append_drop n]
      by_cases name : kind? = some .name
      · subst name
        exact .name found' same (ih later)
      · rw [← text name]
        exact .other found' name (ih later)

theorem respells_append {front front' cs ds : List Char} {kind? : Option TokenKind} {fuel : Nat}
    (found : lexeme? (front ++ cs) = some ⟨kind?, front.length⟩) (same : SameLetters front front')
    (text : kind? ≠ some .name → front = front') (enough : (front ++ cs).length ≤ fuel)
    (later : ∀ rest, cs.length ≤ rest → respells rest cs ds = true) :
    respells fuel (front ++ cs) (front' ++ ds) = true := by
  have taken : 0 < front.length := length_pos_of_lexeme? found
  rw [List.length_append] at enough
  rcases fuel with _ | fuel
  · omega
  · have front_eq : (front' ++ ds).take front.length = front' := by
      rw [same.length_eq, List.take_left]
    have rest_eq : (front' ++ ds).drop front.length = ds := by
      rw [same.length_eq, List.drop_left]
    unfold respells
    simp only [found, List.take_left, List.drop_left, front_eq, rest_eq, true_and]
    rw [later fuel (by omega), Bool.and_true]
    exact decide_eq_true ⟨same, text⟩

theorem Respelled.respells_eq {cs ds : List Char} (h : Respelled cs ds) (fuel : Nat)
    (enough : cs.length ≤ fuel) : respells fuel cs ds = true := by
  induction h generalizing fuel with
  | @rest cs ds none same =>
    rcases fuel with _ | fuel
    · have length := same.length_eq
      obtain rfl := List.length_eq_zero_iff.1 (Nat.le_zero.1 enough)
      obtain rfl := List.length_eq_zero_iff.1 length.symm
      rfl
    · unfold respells
      rw [none]
      exact decide_eq_true same
  | name found same later ih =>
    exact respells_append found same (fun other => absurd rfl other) enough ih
  | other found other later ih => exact respells_append found rfl (fun _ => rfl) enough ih

instance (cs ds : List Char) : Decidable (Respelled cs ds) :=
  decidable_of_iff (respells cs.length cs ds = true)
    ⟨respelled_of_respells, fun h => h.respells_eq _ Nat.le.refl⟩

/-! ## Tokens -/

/-- The tokens are the same, or they are names with the same letters. -/
structure Token.Respelled (t u : Token) : Prop where
  kind : t.kind = u.kind
  start : t.start = u.start
  letters : SameLetters t.text.toList u.text.toList
  text : t.kind ≠ .name → t.text = u.text

theorem Token.Respelled.eq {t u : Token} (h : t.Respelled u) (plain : t.kind ≠ .name) : t = u := by
  obtain ⟨kind, text, start⟩ := t
  obtain ⟨kind', text', start'⟩ := u
  obtain ⟨rfl, rfl, _, same⟩ := h
  cases same plain
  rfl

/-- Two scans find the same tokens but for the letters of names, or both are stopped. -/
def ScansAlike (x y : Except ParseError (List Token)) : Prop :=
  (∃ cause cause', x = .error cause ∧ y = .error cause') ∨
    ∃ ts us, x = .ok ts ∧ y = .ok us ∧ List.Forall₂ Token.Respelled ts us

theorem ScansAlike.stop {cs ds : List Char} (none : lexeme? cs = none) (same : SameLetters cs ds)
    (pos : Nat) : ScansAlike (scanFrom pos 0 cs) (scanFrom pos 0 ds) := by
  have none' : lexeme? ds = Option.none := same.congr lexeme?_map_toUpper ▸ none
  rcases cs with _ | ⟨c, r⟩ <;> rcases ds with _ | ⟨d, r'⟩
  · exact Or.inr ⟨[], [], rfl, rfl, .nil⟩
  · cases same
  · cases same
  · refine Or.inl ⟨.strayChar c pos, .strayChar d pos, ?_, ?_⟩
    · rw [scanFrom_cons, none]
    · rw [scanFrom_cons, none']

/-- Two scans that start with lexemes of one kind and length go alike when they do after these. -/
theorem ScansAlike.lexeme {front front' cs ds : List Char} {kind? : Option TokenKind} {pos : Nat}
    (found : lexeme? (front ++ cs) = some ⟨kind?, front.length⟩)
    (found' : lexeme? (front' ++ ds) = some ⟨kind?, front.length⟩)
    (same : SameLetters front front') (text : kind? ≠ some .name → front = front')
    (later : ScansAlike (scanFrom (pos + front.length) 0 cs) (scanFrom (pos + front.length) 0 ds)) :
    ScansAlike (scanFrom pos 0 (front ++ cs)) (scanFrom pos 0 (front' ++ ds)) := by
  rw [scanFrom_lexeme found]
  rw [same.length_eq] at found' later ⊢
  rw [scanFrom_lexeme found']
  rcases later with ⟨cause, cause', left, right⟩ | ⟨ts, us, left, right, alike⟩ <;>
    rw [left, right]
  · exact Or.inl ⟨cause, cause', rfl, rfl⟩
  · refine Or.inr ⟨_, _, rfl, rfl, ?_⟩
    rcases kind? with _ | kind
    · exact alike
    · have first : Token.Respelled ⟨kind, .ofList front, pos⟩ ⟨kind, .ofList front', pos⟩ := by
        refine ⟨rfl, rfl, by simpa using same, fun plain => ?_⟩
        rw [text fun h => plain (Option.some.inj h)]
      exact .cons first alike

/-- A text that is respelled is scanned alike. -/
theorem Respelled.scansAlike {cs ds : List Char} (h : Respelled cs ds) (pos : Nat) :
    ScansAlike (scanFrom pos 0 cs) (scanFrom pos 0 ds) := by
  induction h generalizing pos with
  | rest none same => exact .stop none same pos
  | @name front front' cs ds found same later ih =>
    have found' := (same.append later.sameLetters).congr lexeme?_map_toUpper ▸ found
    exact .lexeme found found' same (fun other => absurd rfl other) (ih _)
  | @other front cs ds kind? found other later ih =>
    have letters : SameLetters (front ++ cs) (front ++ ds) :=
      SameLetters.append rfl later.sameLetters
    exact .lexeme found (letters.congr lexeme?_map_toUpper ▸ found) rfl (fun _ => rfl) (ih _)

/-! ## Expressions -/

/-- Two outcomes are alike: they are the same, or formula errors with one code. -/
inductive ResultsAlike : Except Fault Value → Except Fault Value → Prop
  | same (x : Except Fault Value) : ResultsAlike x x
  | errors {e e' : FormulaError} (code : e.code = e'.code) :
    ResultsAlike (.error (.formula e)) (.error (.formula e'))

theorem ResultsAlike.bind {x y : Except Fault Value} (h : ResultsAlike x y)
    {next next' : Value → Except Fault Value} (later : ∀ v, ResultsAlike (next v) (next' v)) :
    ResultsAlike (x >>= next) (y >>= next') := by
  cases h with
  | same x =>
    rcases x with fault | v
    · exact .same _
    · exact later v
  | errors code => exact .errors code

theorem ResultsAlike.settle_eq {x y : Except Fault Value} (h : ResultsAlike x y) :
    settle x = settle y := by
  cases h with
  | same x => rfl
  | errors code => exact congrArg (fun code => Except.ok (Value.error code)) code

/-- Two expressions are alike: they take the same room, name the same cells in the same order, and
come to the same, errors with one code being the same. -/
structure Expr.Alike (e d : Expr) : Prop where
  room : e.SameRoom d
  references : e.references = d.references
  result : ∀ lookup, ResultsAlike (e.result lookup) (d.result lookup)

theorem Expr.Alike.refl (e : Expr) : e.Alike e := ⟨⟨rfl, rfl⟩, rfl, fun _ => .same _⟩

theorem Expr.Alike.group {e d : Expr} (h : e.Alike d) (o o' c c' : Nat) :
    (Expr.group o e c).Alike (.group o' d c') where
  room := h.room.group ..
  references := h.references
  result lookup := h.result lookup

theorem Expr.Alike.percent {e d : Expr} (h : e.Alike d) (sign sign' : Nat) :
    (Expr.percent e sign).Alike (.percent d sign') where
  room := h.room.percent ..
  references := h.references
  result lookup := (h.result lookup).bind fun _ => .same _

theorem Expr.Alike.binary {l l' r r' : Expr} (left : l.Alike l') (right : r.Alike r')
    (op : BinaryOp) (sign sign' : Nat) : (Expr.binary op sign l r).Alike (.binary op sign' l' r') where
  room := left.room.binary right.room ..
  references := by
    have names : ∀ s (l r : Expr), (Expr.binary op s l r).references =
        l.references ++ r.references := fun s l r => List.map_append
    rw [names, names, left.references, right.references]
  result lookup := (left.result lookup).bind fun _ => (right.result lookup).bind fun _ => .same _

theorem Token.Respelled.alike {t u : Token} (h : t.Respelled u) {kind : AtomKind}
    (named : kind = .truth ∨ kind = .cell ∨ kind = .name) :
    (Expr.atom ⟨kind, t.text, t.start⟩).Alike (.atom ⟨kind, u.text, u.start⟩) := by
  have letters := h.letters.upper_eq
  rcases named with rfl | rfl | rfl
  · refine ⟨⟨rfl, rfl⟩, rfl, fun lookup => ?_⟩
    rw [Expr.result, Atom.result, letters]
    exact .same _
  · refine ⟨⟨rfl, rfl⟩, congrArg (fun key => [key]) letters, fun lookup => ?_⟩
    rw [Expr.result, Atom.result, letters]
    exact .same _
  · exact ⟨⟨rfl, rfl⟩, rfl, fun lookup => .errors rfl⟩

theorem isTruthWord_iff {s t : String} (h : SameLetters s.toList t.toList) :
    IsTruthWord s ↔ IsTruthWord t := by
  rw [IsTruthWord, IsTruthWord, h.upper_eq]

section

variable {α β : Type} {R : α → β → Prop}

theorem forall₂_singleton_left {x : α} {zs : List β} (h : List.Forall₂ R [x] zs) :
    ∃ z, zs = [z] ∧ R x z := by
  obtain ⟨z, rest, first, later, rfl⟩ := List.forall₂_cons_left_iff.1 h
  cases later
  exact ⟨z, rfl, first⟩

theorem forall₂_append_left {xs ys : List α} {zs : List β} (h : List.Forall₂ R (xs ++ ys) zs) :
    ∃ us vs, zs = us ++ vs ∧ List.Forall₂ R xs us ∧ List.Forall₂ R ys vs := by
  induction xs generalizing zs with
  | nil => exact ⟨[], zs, rfl, .nil, h⟩
  | cons x xs ih =>
    obtain ⟨z, rest, first, later, rfl⟩ := List.forall₂_cons_left_iff.1 h
    obtain ⟨us, vs, rfl, front, back⟩ := ih later
    exact ⟨z :: us, vs, rfl, .cons first front, back⟩

end

/-- Tokens that are respelled are a phrase of the same level, and its tree is alike. -/
theorem Derives.respelled {level : Level} {ts : List Token} {e : Expr} (h : Derives level ts e)
    {us : List Token} (same : List.Forall₂ Token.Respelled ts us) :
    ∃ d, Derives level us d ∧ e.Alike d := by
  induction h generalizing us with
  | number kind =>
    obtain ⟨u, rfl, leaf⟩ := forall₂_singleton_left same
    obtain rfl := leaf.eq (by rw [kind]; nofun)
    exact ⟨_, .number kind, .refl _⟩
  | text kind =>
    obtain ⟨u, rfl, leaf⟩ := forall₂_singleton_left same
    obtain rfl := leaf.eq (by rw [kind]; nofun)
    exact ⟨_, .text kind, .refl _⟩
  | truth kind word =>
    obtain ⟨u, rfl, leaf⟩ := forall₂_singleton_left same
    have word' := (isTruthWord_iff leaf.letters).1 word
    exact ⟨_, .truth (leaf.kind ▸ kind) word', leaf.alike (by simp)⟩
  | cell kind word key =>
    obtain ⟨u, rfl, leaf⟩ := forall₂_singleton_left same
    have word' := mt (isTruthWord_iff leaf.letters).2 word
    have key' := leaf.letters.isCellKey_eq ▸ key
    exact ⟨_, .cell (leaf.kind ▸ kind) word' key', leaf.alike (by simp)⟩
  | name kind word key =>
    obtain ⟨u, rfl, leaf⟩ := forall₂_singleton_left same
    have word' := mt (isTruthWord_iff leaf.letters).2 word
    have key' := leaf.letters.isCellKey_eq ▸ key
    exact ⟨_, .name (leaf.kind ▸ kind) word' key', leaf.alike (by simp)⟩
  | group opens inner closes ih =>
    obtain ⟨front, back, rfl, front', back'⟩ := forall₂_append_left same
    obtain ⟨o, us, first, middle, rfl⟩ := List.forall₂_cons_left_iff.1 front'
    obtain ⟨c, rfl, last⟩ := forall₂_singleton_left back'
    obtain ⟨d, derives, alike⟩ := ih middle
    exact ⟨_, .group (first.kind ▸ opens) derives (last.kind ▸ closes), alike.group ..⟩
  | operand proper inner ih =>
    obtain ⟨d, derives, alike⟩ := ih same
    exact ⟨d, .operand proper derives, alike⟩
  | operation sign kind first second ihl ihr =>
    obtain ⟨us, back, rfl, left, back'⟩ := forall₂_append_left same
    obtain ⟨u, vs, middle, right, rfl⟩ := List.forall₂_cons_left_iff.1 back'
    obtain ⟨l, derivesL, alikeL⟩ := ihl left
    obtain ⟨r, derivesR, alikeR⟩ := ihr right
    exact ⟨_, .operation sign (middle.kind ▸ kind) derivesL derivesR, alikeL.binary alikeR ..⟩
  | percent kind inner ih =>
    obtain ⟨us, back, rfl, front, back'⟩ := forall₂_append_left same
    obtain ⟨u, rfl, last⟩ := forall₂_singleton_left back'
    obtain ⟨d, derives, alike⟩ := ih front
    exact ⟨_, .percent (last.kind ▸ kind) derives, alike.percent ..⟩

/-! ## Formulas -/

theorem Expr.Alike.formula {f g : Formula} (h : f.body.Alike g.body) : f.Alike g where
  references := by rw [references_eq, references_eq, h.references]
  outcome lookup := by rw [outcome_eq, outcome_eq, (h.result lookup).settle_eq]

theorem Respelled.head?_eq_sign {cs ds : List Char} (h : Respelled cs ds)
    (starts : cs.head? = some '=') : ds.head? = some '=' := by
  rcases cs with _ | ⟨c, cs⟩
  · cases starts
  · cases starts
    have letters := h.sameLetters
    rcases ds with _ | ⟨d, ds⟩
    · cases letters
    · have first : '='.toUpper = d.toUpper := (List.cons.inj letters).1
      exact congrArg some ((toUpper_eq_iff (by decide) d).1 first.symm)

theorem Respelled.exists_parse {text text' : String} (h : Respelled text.toList text'.toList)
    {limit : Limit} {f : Formula} (parsed : parse text limit = .ok f) :
    ∃ g, parse text' limit = .ok g ∧ f.Alike g := by
  obtain ⟨_, starts, tokens, scanned, derives, fits⟩ := parse_eq_ok_iff.1 parsed
  have starts' := h.head?_eq_sign starts
  rcases h.scansAlike 0 with ⟨_, _, failed, _⟩ | ⟨ts, us, left, right, same⟩
  · cases scanned.symm.trans failed
  · cases scanned.symm.trans left
    obtain ⟨later, rfl⟩ := scan_sign starts' right
    cases same with
    | cons sign rest =>
      obtain ⟨body, derives', alike⟩ := derives.respelled rest
      have same : body.SameRoom f.body := ⟨alike.room.nesting.symm, alike.room.height.symm⟩
      refine ⟨⟨text', body⟩, parse_eq_ok_iff.2 ⟨rfl, starts', later, right, derives', same.allows fits⟩, ?_⟩
      exact alike.formula

/-- A text that is respelled is read as a formula that is alike, or both are read as none. -/
theorem Respelled.parse_alike {text text' : String} (h : Respelled text.toList text'.toList)
    (limit : Limit) :
    Option.Rel Alike (parse text limit).toOption (parse text' limit).toOption := by
  rcases left : parse text limit with cause | f
  · rcases right : parse text' limit with cause' | g
    · exact .none
    · obtain ⟨f, parsed, _⟩ := h.symm.exists_parse right
      cases left.symm.trans parsed
  · obtain ⟨g, parsed, alike⟩ := h.exists_parse left
    rw [parsed]
    exact .some alike

end Worksheet.Formula
