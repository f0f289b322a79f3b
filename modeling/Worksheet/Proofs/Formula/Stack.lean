-- How high the calls of the parser stand. Every group adds a bounded number of calls, whatever the
-- operators around it are, and there are texts that take as much as that. Where the stack has no
-- room for them the parser refuses formulas that the grammar has.
import Worksheet.Proofs.Formula.Places

namespace Worksheet.Formula

/-! ## The most that a formula takes -/

/-- How many calls stand between a reader of the level and the operand furthest on the right. -/
def Level.rightmost : Level → Nat
  | compare => 9
  | concat => 7
  | additive => 5
  | term => 3
  | unary | power => 1
  | primary => 0

theorem Level.rightmost_operand (level : Level) : level.operand.rightmost ≤ level.rightmost := by
  cases level <;> decide

theorem Level.aside_add_rightmost {level : Level} (chained : level.signs ≠ []) :
    level.operand.rightmost + aside level.rank = level.rightmost := by
  cases level with
  | unary | primary => exact absurd rfl chained
  | _ => rfl

/-- A group adds nine calls of its own, and nine for the operators on whose right it stands. -/
theorem Derives.height_le {level : Level} {ts : List Token} {e : Expr} (h : Derives level ts e) :
    e.height ≤ 18 * e.nesting + 10 + level.rightmost := by
  induction h with
  | number | text | truth | cell | name => exact Nat.le_refl 10
  | group _ _ _ ih =>
    have nine : Level.compare.rightmost = 9 := rfl
    simp only [Expr.height, Expr.nesting]
    omega
  | @operand level _ _ _ _ ih =>
    have fewer := level.rightmost_operand
    omega
  | operation sign _ _ _ ihl ihr =>
    have same := rank_of_sign sign
    have sum := Level.aside_add_rightmost (chained_of_sign sign)
    simp only [Expr.height, Expr.nesting, same]
    omega
  | percent _ _ ih => exact ih

/-! ## Texts that take as much -/

/-- An operator of every rank, each on the right of the one before. -/
def ladder : List Char := ['1', '=', '1', '&', '1', '+', '1', '*', '1', '^']

def one (pos : Nat) : Token := ⟨.number, "1", pos⟩

def rungs (pos : Nat) : List Token :=
  [one pos, Symbol.equal.token (pos + 1), one (pos + 2), Symbol.join.token (pos + 3),
    one (pos + 4), Symbol.plus.token (pos + 5), one (pos + 6), Symbol.times.token (pos + 7),
    one (pos + 8), Symbol.power.token (pos + 9)]

theorem derives_one (level : Level) (pos : Nat) :
    Derives level [one pos] (.atom ⟨.number, "1", pos⟩) :=
  Derives.to_any (.number rfl) level

theorem Derives.beside {ts : List Token} {e : Expr} (level : Level) (op : BinaryOp)
    (h : Derives level.operand ts e) (sign : op.symbol ∈ level.signs) (pos : Nat) :
    Derives level (one pos :: op.symbol.token (pos + 1) :: ts)
      (.binary op (pos + 1) (.atom ⟨.number, "1", pos⟩) e) :=
  .operation sign rfl (derives_one level pos) h

/-- On the right of all the operators an expression takes nine calls more. -/
theorem Derives.exists_laddered {ts : List Token} {e : Expr} (h : Derives .primary ts e)
    (pos : Nat) : ∃ e', Derives .compare (rungs pos ++ ts) e' ∧ e'.nesting = e.nesting ∧
      e'.height = e.height + 9 := by
  have power := h.beside .power .power (by decide) (pos + 8)
  have unary : Derives .unary _ _ := .operand (by decide) power
  have term := unary.beside .term .times (by decide) (pos + 6)
  have additive := term.beside .additive .plus (by decide) (pos + 4)
  have concat := additive.beside .concat .join (by decide) (pos + 2)
  refine ⟨_, concat.beside .compare .equal (by decide) pos, ?_, ?_⟩
  · simp [Expr.nesting]
  · have low := e.ten_le_height
    have chains : aside 0 = 2 ∧ aside 1 = 2 ∧ aside 2 = 2 ∧ aside 3 = 2 ∧ aside 5 = 1 := by decide
    simp only [Expr.height, BinaryOp.rank, chains]
    omega

/-- Wherever they start, the characters are an expression with groups so deep and calls so high. -/
def Takes (cs : List Char) (nesting height : Nat) : Prop :=
  ∀ pos, ∃ ts e, Scanned pos cs ts ∧ Derives .compare ts e ∧ e.nesting = nesting ∧
    e.height = height

theorem takes_one : Takes ['1'] 0 10 := by
  intro pos
  have alone : Scanned 0 ['1'] [one 0] := scanned_of_scanFrom (by decide +kernel)
  have moved := alone.move (m := (pos + ·)) fun n => by omega
  exact ⟨_, _, moved, derives_one .compare pos, rfl, rfl⟩

theorem takes_ladder : Takes (ladder ++ ['1']) 0 19 := by
  intro pos
  have steps : Scanned 0 (ladder ++ ['1']) (rungs 0 ++ [one 10]) :=
    scanned_of_scanFrom (by decide +kernel)
  have moved := steps.move (m := (pos + ·)) fun n => by omega
  obtain ⟨e, derives, nesting, height⟩ := (derives_one .primary (pos + 10)).exists_laddered pos
  exact ⟨_, e, moved, derives, nesting, height⟩

/-- The characters as a group on the right of all those operators. -/
def stacked (inner : List Char) : List Char := ladder ++ '(' :: (inner ++ [')'])

/-- One more group makes the calls eighteen higher. -/
theorem Takes.higher {cs : List Char} {nesting height : Nat} (h : Takes cs nesting height) :
    Takes (stacked cs) (nesting + 1) (height + 18) := by
  intro pos
  obtain ⟨ts, e, scanned, derives, rfl, rfl⟩ := h (pos + 11)
  have steps : Scanned 0 ladder (rungs 0) := scanned_of_scanFrom (by decide +kernel)
  have steps := steps.move (m := (pos + ·)) fun n => by omega
  have last : Scanned (pos + 11 + cs.length) [')']
      [Symbol.closing.token (pos + 11 + cs.length)] := .symbol (.done _) rfl rfl
  have group := (scanned.append divides_closing last).symbol (c := '(') (s := .opening) rfl rfl
  have inner : Derives .primary (Symbol.opening.token (pos + 10) :: ts ++
      [Symbol.closing.token (pos + 11 + cs.length)]) _ := .group rfl derives rfl
  obtain ⟨e', derives', nesting, height⟩ := inner.exists_laddered pos
  exact ⟨_, e', steps.append divides_opening group, derives', nesting, height⟩

theorem Takes.iterate {cs : List Char} {nesting height : Nat} (h : Takes cs nesting height)
    (n : Nat) : Takes (stacked^[n] cs) (nesting + n) (height + 18 * n) := by
  induction n with
  | zero => exact h
  | succ n ih =>
    rw [Function.iterate_succ_apply']
    exact ih.higher

/-- An equals sign and characters that are stacked so often. -/
def heap (n : Nat) (inner : List Char) : String := .ofList ('=' :: stacked^[n] inner)

theorem toList_heap (n : Nat) (inner : List Char) :
    (heap n inner).toList = '=' :: stacked^[n] inner := String.toList_ofList

/-- A heap is a formula, and it takes eighteen calls for each of its groups. -/
theorem Takes.isFormula_heap {cs : List Char} {nesting height : Nat} (h : Takes cs nesting height)
    (n : Nat) : ∃ e, IsFormula (nesting + n) (heap n cs) e ∧ e.nesting = nesting + n ∧
      e.height = height + 18 * n := by
  obtain ⟨ts, e, scanned, derives, deep, high⟩ := h.iterate n 1
  have sign : Scanned 0 ('=' :: stacked^[n] cs) (Symbol.equal.token 0 :: ts) :=
    scanned.symbol (s := .equal) rfl rfl
  refine ⟨e, ⟨?_, ts, ?_, derives, ?_⟩, deep, high⟩
  · rw [toList_heap]
    rfl
  · exact sign.scan_eq (toList_heap n cs)
  · exact Nat.le_of_eq (derives.peak_eq.trans deep)

/-! ## Formulas -/

/-- The parser reads a formula just where its calls have room on the stack. -/
theorem parse_eq_ok_iff_isFormula {text : String} {limit : Limit} {f : Formula} :
    parse text limit = .ok f ↔
      f.text = text ∧ IsFormula limit.depth.toNat text f.body ∧ f.body.height ≤ limit.stack := by
  rw [parse_eq_ok_iff]
  constructor
  · rintro ⟨same, starts, tokens, scanned, derives, room⟩
    exact ⟨same, ⟨starts, tokens, scanned, derives, derives.peak_eq ▸ room.nesting⟩, room.height⟩
  · rintro ⟨same, ⟨starts, tokens, scanned, derives, deep⟩, high⟩
    exact ⟨same, starts, tokens, scanned, derives, derives.peak_eq ▸ deep, high⟩

theorem IsFormula.unique {text : String} {d d' : Nat} {e e' : Expr} (h : IsFormula d text e)
    (h' : IsFormula d' text e') : e = e' := by
  obtain ⟨_, tokens, scanned, derives, _⟩ := h
  obtain ⟨_, tokens', scanned', derives', _⟩ := h'
  cases scanned.symm.trans scanned'
  exact derives_unique derives derives'

/-- The parser accepts the texts that are formulas and whose calls have room on the stack, and no
others. Of a formula it gives the only tree that the grammar has for its tokens, from which they
can be read off from left to right; of any other text it tells what is wrong. Eighteen calls for
each level of parentheses, and nineteen, are always enough. -/
theorem parse_accepts_the_grammar (text : String) (limit : Limit) :
    ((∃ f, parse text limit = .ok f) ↔
      ∃ body, IsFormula limit.depth.toNat text body ∧ body.height ≤ limit.stack) ∧
    (∀ f, parse text limit = .ok f → f.text = text ∧ ∃ tokens,
      scan text = .ok (Symbol.equal.token 0 :: tokens) ∧ Derives .compare tokens f.body ∧
      f.body.tokens = tokens ∧ ∀ body, Derives .compare tokens body → body = f.body) ∧
    ((∃ cause, parse text limit = .error cause) ↔
      ¬ ∃ body, IsFormula limit.depth.toNat text body ∧ body.height ≤ limit.stack) ∧
    ∀ d body, IsFormula d text body → body.height ≤ 18 * d + 19 := by
  have accepts : (∃ f, parse text limit = .ok f) ↔
      ∃ body, IsFormula limit.depth.toNat text body ∧ body.height ≤ limit.stack := by
    simp only [parse_eq_ok_iff_isFormula]
    constructor
    · rintro ⟨f, _, formula⟩
      exact ⟨f.body, formula⟩
    · rintro ⟨body, formula⟩
      exact ⟨⟨text, body⟩, rfl, formula⟩
  refine ⟨accepts, fun f h => ?_, ?_, ?_⟩
  · obtain ⟨same, _, tokens, scanned, derives, _⟩ := parse_eq_ok_iff.1 h
    obtain ⟨_, tokens', scanned', yield⟩ := tokens_of_parse h
    cases scanned.symm.trans scanned'
    exact ⟨same, tokens, scanned, derives, yield, fun body other => derives_unique other derives⟩
  · rw [← accepts]
    rcases parse text limit with cause | f <;> simp
  · rintro d body ⟨_, tokens, _, derives, deep⟩
    rw [derives.peak_eq] at deep
    have high := derives.height_le
    have nine : Level.compare.rightmost = 9 := rfl
    omega

/-- Fifty-nine groups, each on the right of an operator of every rank, are a formula that a
thousand calls are too few for. -/
theorem stack_runs_out_before_fifty_nine_groups :
    ∃ body, IsFormula 59 (heap 59 ['1']) body ∧ body.height = 1072 ∧
      ∃ cause, parse (heap 59 ['1']) ⟨59, 1000, by decide⟩ = .error cause := by
  obtain ⟨body, formula, _, high⟩ := takes_one.isFormula_heap 59
  refine ⟨body, formula, high, ?_⟩
  rcases outcome : parse (heap 59 ['1']) ⟨59, 1000, by decide⟩ with cause | f
  · exact ⟨cause, rfl⟩
  · obtain ⟨_, formula', fits⟩ := parse_eq_ok_iff_isFormula.1 outcome
    rw [formula'.unique formula, high] at fits
    exact absurd fits (by decide)

end Worksheet.Formula
