-- The grammar of formulas. `Derives` says which tokens are a phrase of a level, and which tree they
-- have. Every reader takes the phrases of its level and no others, as far as there is room for
-- their groups and their calls. So a text is read just where the grammar has it and the limit
-- allows it, and it has one tree only.
import Worksheet.Proofs.Formula.Lexemes
import Worksheet.Proofs.Formula.Yield
import Worksheet.Proofs.Runs

namespace Worksheet.Formula

open Worksheet.Text (upper)

/-! ## The grammar -/

/-- The levels of phrases, from the loosest to the tightest. -/
inductive Level
  | compare
  | concat
  | additive
  | term
  | unary
  | power
  | primary
  deriving DecidableEq

namespace Level

/-- The level of the operands. A primary has none. -/
def operand : Level → Level
  | compare => concat
  | concat => additive
  | additive => term
  | term => unary
  | unary => power
  | power => primary
  | primary => primary

/-- The signs that may stand between operands. -/
def signs : Level → List Symbol
  | compare => [.equal, .unequal, .greater, .less, .atLeast, .atMost]
  | concat => [.join]
  | additive => [.plus, .minus]
  | term => [.times, .divide]
  | power => [.power]
  | unary | primary => []

end Level

/-- The word of a truth value, in letters of either case. -/
def IsTruthWord (word : String) : Prop := upper word = "TRUE" ∨ upper word = "FALSE"

/-- The tokens are a phrase of the level, and this is its tree. -/
inductive Derives : Level → List Token → Expr → Prop
  | number {t : Token} (kind : t.kind = .number) :
    Derives .primary [t] (.atom ⟨.number, t.text, t.start⟩)
  | text {t : Token} (kind : t.kind = .text) :
    Derives .primary [t] (.atom ⟨.text, t.text, t.start⟩)
  | truth {t : Token} (kind : t.kind = .name) (word : IsTruthWord t.text) :
    Derives .primary [t] (.atom ⟨.truth, t.text, t.start⟩)
  | cell {t : Token} (kind : t.kind = .name) (word : ¬ IsTruthWord t.text)
    (key : isCellKey t.text = true) : Derives .primary [t] (.atom ⟨.cell, t.text, t.start⟩)
  | name {t : Token} (kind : t.kind = .name) (word : ¬ IsTruthWord t.text)
    (key : isCellKey t.text = false) : Derives .primary [t] (.atom ⟨.name, t.text, t.start⟩)
  /-- A phrase of the loosest level between parentheses. -/
  | group {opening closing : Token} {ts : List Token} {e : Expr}
    (opens : opening.kind = .symbol .opening) (inner : Derives .compare ts e)
    (closes : closing.kind = .symbol .closing) :
    Derives .primary (opening :: ts ++ [closing]) (.group opening.start e closing.start)
  /-- One operand alone. -/
  | operand {level : Level} {ts : List Token} {e : Expr} (proper : level ≠ .primary)
    (inner : Derives level.operand ts e) : Derives level ts e
  /-- One more operand, after a phrase of the same level and a sign. -/
  | operation {level : Level} {ts us : List Token} {t : Token} {op : BinaryOp} {left right : Expr}
    (sign : op.symbol ∈ level.signs) (kind : t.kind = .symbol op.symbol)
    (first : Derives level ts left) (second : Derives level.operand us right) :
    Derives level (ts ++ t :: us) (.binary op t.start left right)
  /-- One percent sign after an operand. -/
  | percent {ts : List Token} {t : Token} {e : Expr} (kind : t.kind = .symbol .percent)
    (inner : Derives .power ts e) : Derives .unary (ts ++ [t]) (.percent e t.start)

theorem Derives.of_primary {ts : List Token} {e : Expr} (h : Derives .primary ts e) :
    Derives .compare ts e := by
  have power : Derives .power ts e := .operand (by decide) h
  have unary : Derives .unary ts e := .operand (by decide) power
  have term : Derives .term ts e := .operand (by decide) unary
  have additive : Derives .additive ts e := .operand (by decide) term
  have concat : Derives .concat ts e := .operand (by decide) additive
  exact .operand (by decide) concat

/-- How many parentheses are open after a token. -/
def Token.depthAfter (t : Token) (depth : Nat) : Nat :=
  match t.kind with
  | .symbol .opening => depth + 1
  | .symbol .closing => depth - 1
  | _ => depth

/-- The most parentheses that are open at one time in tokens, where `depth` are open before. -/
def peak (depth : Nat) : List Token → Nat
  | [] => depth
  | t :: ts => max depth (peak (t.depthAfter depth) ts)

/-- A text is a formula with this tree: an equals sign, and after it tokens that are a phrase of the
loosest level, with parentheses at most `d` deep. -/
def IsFormula (d : Nat) (text : String) (body : Expr) : Prop :=
  text.toList.head? = some '=' ∧ ∃ tokens,
    scan text = .ok (Symbol.equal.token 0 :: tokens) ∧ Derives .compare tokens body ∧
      peak 0 tokens ≤ d

/-- How high the calls stand on the stack while an expression is read. A leaf is reached and looked
at by ten calls, and nine more lead into a group. -/
def Expr.height : Expr → Nat
  | .atom _ => 10
  | .group _ inner _ => inner.height + 9
  | .percent operand _ => operand.height
  | .binary op _ left right => max left.height (right.height + aside op.rank)

/-! ## Depth -/

theorem le_peak (depth : Nat) (ts : List Token) : depth ≤ peak depth ts := by
  cases ts with
  | nil => exact Nat.le_refl depth
  | cons t ts => exact Nat.le_max_left _ _

theorem peak_cons_plain {t : Token} (plain : ∀ depth, t.depthAfter depth = depth) (depth : Nat)
    (ts : List Token) : peak depth (t :: ts) = peak depth ts := by
  rw [peak, plain]
  exact Nat.max_eq_right (le_peak depth ts)

theorem depthAfter_operator {t : Token} {op : BinaryOp} (kind : t.kind = .symbol op.symbol)
    (depth : Nat) : t.depthAfter depth = depth := by
  unfold Token.depthAfter
  rw [kind]
  cases op <;> rfl

theorem peak_leaf {t : Token} (plain : ∀ depth, t.depthAfter depth = depth) (depth : Nat)
    (rest : List Token) : peak depth ([t] ++ rest) = max (depth + 0) (peak depth rest) := by
  rw [List.singleton_append, peak_cons_plain plain]
  exact (Nat.max_eq_right (le_peak depth rest)).symm

/-- Over a phrase no more parentheses are open than its groups open, and none is open after it that
was not open before. -/
theorem Derives.peak_append {level : Level} {ts : List Token} {e : Expr} (h : Derives level ts e)
    (depth : Nat) (rest : List Token) :
    peak depth (ts ++ rest) = max (depth + e.nesting) (peak depth rest) := by
  induction h generalizing depth rest with
  | number kind => exact peak_leaf (by simp [Token.depthAfter, kind]) depth rest
  | text kind => exact peak_leaf (by simp [Token.depthAfter, kind]) depth rest
  | truth kind => exact peak_leaf (by simp [Token.depthAfter, kind]) depth rest
  | cell kind => exact peak_leaf (by simp [Token.depthAfter, kind]) depth rest
  | name kind => exact peak_leaf (by simp [Token.depthAfter, kind]) depth rest
  | @group opening closing ts e opens inner closes ih =>
    have up : opening.depthAfter depth = depth + 1 := by simp [Token.depthAfter, opens]
    have down : closing.depthAfter (depth + 1) = depth := by simp [Token.depthAfter, closes]
    have low := le_peak depth rest
    rw [List.cons_append, List.cons_append, List.append_assoc, List.singleton_append, peak, up, ih,
      peak, down, Expr.nesting]
    omega
  | operand proper inner ih => exact ih depth rest
  | @operation level ts us t op left right sign kind first second ihl ihr =>
    rw [List.append_assoc, ihl, List.cons_append, peak_cons_plain (depthAfter_operator kind), ihr,
      Expr.nesting]
    omega
  | @percent ts t e kind inner ih =>
    have plain : ∀ n, t.depthAfter n = n := fun n => by simp [Token.depthAfter, kind]
    rw [List.append_assoc, ih, List.singleton_append, peak_cons_plain plain, Expr.nesting]

/-- The parentheses of a phrase are as deep as the groups of its tree. -/
theorem Derives.peak_eq {level : Level} {ts : List Token} {e : Expr} (h : Derives level ts e) :
    peak 0 ts = e.nesting := by
  have whole := h.peak_append 0 []
  rw [List.append_nil, Nat.zero_add] at whole
  exact whole.trans (Nat.max_eq_left (Nat.zero_le _))

/-! ## Where a phrase ends -/

namespace Level

def rank : Level → Nat
  | compare => 0
  | concat => 1
  | additive => 2
  | term => 3
  | unary => 4
  | power => 5
  | primary => 6

/-- The symbols that make a phrase of the level longer where they follow it. -/
def followers : Level → List Symbol
  | primary => []
  | power => power.signs
  | unary => .percent :: power.signs
  | term => term.signs ++ .percent :: power.signs
  | additive => additive.signs ++ term.signs ++ .percent :: power.signs
  | concat => concat.signs ++ additive.signs ++ term.signs ++ .percent :: power.signs
  | compare =>
    compare.signs ++ concat.signs ++ additive.signs ++ term.signs ++ .percent :: power.signs

/-- What follows does not make a phrase of the level longer. -/
def Stops (level : Level) (rest : List Token) : Prop :=
  ∀ t, rest.head? = some t → ∀ s ∈ level.followers, t.kind ≠ .symbol s

theorem stops_nil (level : Level) : level.Stops [] := nofun

theorem stops_cons {level : Level} {t : Token} {s : Symbol} (kind : t.kind = .symbol s)
    (other : s ∉ level.followers) (rest : List Token) : level.Stops (t :: rest) := by
  rintro _ ⟨⟩ s' member same
  rw [kind, TokenKind.symbol.injEq] at same
  exact other (same ▸ member)

theorem Stops.operand {level : Level} {rest : List Token} (h : level.Stops rest) :
    level.operand.Stops rest := by
  have fewer : ∀ s ∈ level.operand.followers, s ∈ level.followers := by
    cases level <;> decide
  exact fun t head s member => h t head s (fewer s member)

theorem stops_of_sign {level : Level} {t : Token} {s : Symbol} (kind : t.kind = .symbol s)
    (sign : s ∈ level.signs) (rest : List Token) : level.operand.Stops (t :: rest) := by
  have apart : ∀ s ∈ level.signs, s ∉ level.operand.followers := by
    cases level <;> decide
  exact stops_cons kind (apart s sign) rest

end Level

theorem Token.operator?_eq_some_iff {level : Level} {t : Token} {op : BinaryOp} :
    t.operator? level.rank = some op ↔ t.kind = .symbol op.symbol ∧ op.symbol ∈ level.signs := by
  have ranks : op.rank = level.rank ↔ op.symbol ∈ level.signs := by
    cases op <;> cases level <;> decide
  rw [← ranks]
  constructor
  · intro h
    refine ⟨t.kind_of_operator? h, ?_⟩
    unfold operator? at h
    split at h
    · simpa using (Option.filter_eq_some_iff.1 h).2
    · cases h
  · rintro ⟨kind, same⟩
    unfold operator?
    simp only [kind]
    exact Option.filter_eq_some_iff.2 ⟨Symbol.operator?_eq_some.2 rfl, by simpa using same⟩

theorem Level.Stops.operator? {level : Level} {t : Token} {rest : List Token}
    (h : level.Stops (t :: rest)) : t.operator? level.rank = none := by
  have own : ∀ s ∈ level.signs, s ∈ level.followers := by
    cases level <;> decide
  rcases found : t.operator? level.rank with _ | op
  · rfl
  · obtain ⟨kind, sign⟩ := Token.operator?_eq_some_iff.1 found
    exact absurd kind (h t rfl op.symbol (own _ sign))

/-! ## Readers -/

/-- How many calls stand between a reader of the loosest level and one of this level. -/
def Level.above : Level → Nat
  | compare => 0
  | concat => 1
  | additive => 2
  | term => 3
  | unary => 4
  | power => 6
  | primary => 7

/-- There is room for the groups of an expression, and a reader of the level has room for the calls
that it takes. -/
structure Expr.Fits (level : Level) (room calls : Nat) (e : Expr) : Prop where
  nesting : e.nesting ≤ room
  height : e.height ≤ calls + level.above

/-- The reader takes the phrases of the level that fit, and no others. -/
structure Reads (level : Level) (room : Nat) (read : Caller) : Prop where
  sound : ∀ calls tokens e rest, read calls tokens = .ok (e, rest) →
    ∃ taken, tokens = taken ++ rest ∧ Derives level taken e ∧ e.Fits level room calls
  complete : ∀ calls taken e rest, Derives level taken e → e.Fits level room calls →
    level.Stops rest → read calls (taken ++ rest) = .ok (e, rest)

variable {level : Level} {room calls : Nat} {read : Caller} {e left right : Expr}

theorem Expr.ten_le_height (e : Expr) : 10 ≤ e.height := by
  induction e with
  | atom a => exact Nat.le_refl 10
  | group o inner c ih => exact Nat.le_add_right_of_le ih
  | percent operand sign ih => exact ih
  | binary op sign left right ihl ihr => exact Nat.le_trans ihl (Nat.le_max_left _ _)

theorem Level.above_le (level : Level) : level.above ≤ 7 := by
  cases level <;> decide

theorem Level.above_operand {level : Level} (chained : level.signs ≠ []) :
    level.operand.above = level.above + 1 := by
  cases level with
  | unary | primary => exact absurd rfl chained
  | _ => rfl

theorem rank_of_sign {op : BinaryOp} (sign : op.symbol ∈ level.signs) : op.rank = level.rank := by
  revert sign
  cases op <;> cases level <;> decide

theorem chained_of_sign {s : Symbol} (sign : s ∈ level.signs) : level.signs ≠ [] :=
  List.ne_nil_of_mem sign

/-- The first operand of a chain is read one call further on. -/
theorem Expr.fits_operand (chained : level.signs ≠ []) :
    e.Fits level.operand room (calls - 1) ↔ e.Fits level room calls := by
  have high := e.ten_le_height
  have low := level.operand.above_le
  have next := Level.above_operand chained
  constructor <;> rintro ⟨nesting, height⟩ <;> exact ⟨nesting, by omega⟩

/-- An operation fits where its left side does, and its right side with the calls between. -/
theorem Expr.fits_binary {op : BinaryOp} (sign : op.symbol ∈ level.signs) (pos : Nat) :
    (Expr.binary op pos left right).Fits level room calls ↔
      left.Fits level room calls ∧
        right.Fits level.operand room (calls - 1 - aside level.rank) := by
  have high := right.ten_le_height
  have low := level.operand.above_le
  have next := Level.above_operand (chained_of_sign sign)
  have same := rank_of_sign sign
  constructor
  · rintro ⟨nesting, height⟩
    obtain ⟨deepL, deepR⟩ := Nat.max_le.1 nesting
    obtain ⟨highL, highR⟩ := Nat.max_le.1 height
    rw [same] at highR
    exact ⟨⟨deepL, highL⟩, deepR, by omega⟩
  · rintro ⟨⟨deepL, highL⟩, deepR, highR⟩
    refine ⟨Nat.max_le.2 ⟨deepL, deepR⟩, Nat.max_le.2 ⟨highL, ?_⟩⟩
    rw [same]
    omega

theorem Expr.fits_power : e.Fits .power room (calls - 2) ↔ e.Fits .unary room calls := by
  have high := e.ten_le_height
  have above : Level.power.above = Level.unary.above + 2 := rfl
  have low := Level.power.above_le
  constructor <;> rintro ⟨nesting, height⟩ <;> exact ⟨nesting, by omega⟩

/-- What stands in a group is read two calls further on, from the loosest level. -/
theorem Expr.fits_group {opening closing : Nat} :
    (Expr.group opening e closing).Fits .primary room calls ↔
      e.nesting + 1 ≤ room ∧ e.height ≤ calls - 2 := by
  have high := e.ten_le_height
  have above : Level.primary.above = 7 := rfl
  constructor
  · rintro ⟨nesting, height⟩
    have height : e.height + 9 ≤ calls + Level.primary.above := height
    exact ⟨nesting, by omega⟩
  · rintro ⟨nesting, height⟩
    have total : e.height + 9 ≤ calls + Level.primary.above := by omega
    exact ⟨nesting, total⟩

theorem Expr.fits_atom {a : Atom} : (Expr.atom a).Fits .primary room calls ↔ 3 ≤ calls := by
  have above : Level.primary.above = 7 := rfl
  constructor
  · rintro ⟨_, height⟩
    have height : 10 ≤ calls + Level.primary.above := height
    omega
  · intro enough
    have total : 10 ≤ calls + Level.primary.above := by omega
    exact ⟨Nat.zero_le _, total⟩

/-! ### Chains -/

/-- Each round makes a longer phrase of what was read before. -/
theorem Reads.rounds_sound (inner : Reads level.operand room read)
    {budget tokens before : List Token} {left e : Expr} {rest : List Token}
    (first : Derives level before left) (fits : left.Fits level room calls)
    (h : rounds level.rank (read (calls - 1 - aside level.rank)) budget left tokens =
      .ok (e, rest)) :
    ∃ taken, tokens = taken ++ rest ∧ Derives level (before ++ taken) e ∧
      e.Fits level room calls := by
  induction budget generalizing before left tokens with
  | nil =>
    cases tokens <;> cases h <;> exact ⟨[], rfl, by rwa [List.append_nil], fits⟩
  | cons _ budget ih =>
    cases tokens with
    | nil =>
      cases h
      exact ⟨[], rfl, by rwa [List.append_nil], fits⟩
    | cons t after =>
      simp only [rounds] at h
      split at h
      · cases h
        exact ⟨[], rfl, by rwa [List.append_nil], fits⟩
      · rename_i op found
        obtain ⟨⟨right, after'⟩, reads, later⟩ := exists_of_bind h
        obtain ⟨us, rfl, second, fits'⟩ := inner.sound _ _ _ _ reads
        obtain ⟨kind, sign⟩ := Token.operator?_eq_some_iff.1 found
        have longer := (Expr.fits_binary sign t.start).2 ⟨fits, fits'⟩
        obtain ⟨taken, rfl, whole, fits''⟩ := ih (.operation sign kind first second) longer later
        refine ⟨t :: us ++ taken, by simp, ?_, fits''⟩
        rw [List.append_assoc] at whole
        exact whole

/-- Reading a phrase of a chain and what follows it is going on after the phrase. -/
theorem Reads.chain_continues (inner : Reads level.operand room read)
    (chained : level.signs ≠ []) {ts : List Token} {e : Expr} (h : Derives level ts e)
    (fits : e.Fits level room calls) (rest : List Token) (stops : level.operand.Stops rest) :
    ∃ budget : List Token, rest.length ≤ budget.length ∧
      chain level.rank read calls (ts ++ rest) =
        rounds level.rank (read (calls - 1 - aside level.rank)) budget e rest := by
  induction h generalizing rest with
  | number => exact absurd rfl chained
  | text => exact absurd rfl chained
  | truth => exact absurd rfl chained
  | cell => exact absurd rfl chained
  | name => exact absurd rfl chained
  | group => exact absurd rfl chained
  | percent => exact absurd rfl chained
  | @operand level ts e proper below _ =>
    refine ⟨ts ++ rest, by simp, ?_⟩
    unfold chain
    rw [inner.complete _ ts e rest below ((Expr.fits_operand chained).2 fits) stops]
    rfl
  | @operation level ts us t op left right sign kind first second ihl _ =>
    obtain ⟨fitsLeft, fitsRight⟩ := (Expr.fits_binary sign _).1 fits
    obtain ⟨budget, enough, run⟩ :=
      ihl inner chained fitsLeft (t :: us ++ rest) (Level.stops_of_sign kind sign _)
    rcases budget with _ | ⟨turn, budget⟩
    · simp at enough
    refine ⟨budget, by simp at enough; omega, ?_⟩
    rw [List.append_assoc, run]
    simp only [List.cons_append, rounds, Token.operator?_eq_some_iff.2 ⟨kind, sign⟩]
    rw [inner.complete _ us right rest second fitsRight stops]
    rfl

theorem Reads.chain (level : Level) (inner : Reads level.operand room read)
    (chained : level.signs ≠ []) : Reads level room (chain level.rank read) where
  sound calls tokens e rest h := by
    obtain ⟨⟨left, after⟩, reads, later⟩ := exists_of_bind h
    obtain ⟨before, rfl, first, fits⟩ := inner.sound _ _ _ _ reads
    have proper : level ≠ .primary := by
      rintro rfl
      exact chained rfl
    obtain ⟨taken, rfl, whole, fits'⟩ :=
      inner.rounds_sound (.operand proper first) ((Expr.fits_operand chained).1 fits) later
    exact ⟨before ++ taken, by simp, whole, fits'⟩
  complete calls taken e rest h fits stops := by
    obtain ⟨budget, _, run⟩ := inner.chain_continues chained h fits rest stops.operand
    rw [run]
    cases rest with
    | nil => cases budget <;> rfl
    | cons t after =>
      cases budget with
      | nil => rfl
      | cons _ budget => simp only [rounds, stops.operator?]

/-! ### Percent signs -/

theorem Reads.percented (inner : Reads .power room read) :
    Reads .unary room (percented read) where
  sound calls tokens e rest h := by
    obtain ⟨⟨operand, after⟩, reads, later⟩ := exists_of_bind h
    obtain ⟨taken, rfl, below, fits⟩ := inner.sound _ _ _ _ reads
    have fits := Expr.fits_power.1 fits
    have alone : Derives .unary taken operand := .operand (by decide) below
    cases after with
    | nil =>
      cases later
      exact ⟨taken, rfl, alone, fits⟩
    | cons t after =>
      simp only at later
      split at later
      · rename_i kind
        cases later
        exact ⟨taken ++ [t], by simp, .percent kind below, fits.nesting, fits.height⟩
      · cases later
        exact ⟨taken, rfl, alone, fits⟩
  complete calls taken e rest h fits stops := by
    cases h with
    | operand _ below =>
      unfold Formula.percented
      rw [inner.complete _ taken e rest below (Expr.fits_power.2 fits) stops.operand]
      cases rest with
      | nil => rfl
      | cons t after =>
        have plain : t.kind ≠ .symbol .percent := stops t rfl .percent (by decide)
        simp only [bind, Except.bind, plain, if_false]
    | operation sign => cases sign
    | @percent ts t e kind below =>
      have ends : Level.power.Stops (t :: rest) := Level.stops_cons kind (by decide) rest
      have inside : e.Fits .unary room calls := ⟨fits.nesting, fits.height⟩
      unfold Formula.percented
      rw [List.append_assoc, List.singleton_append,
        inner.complete _ ts e (t :: rest) below (Expr.fits_power.2 inside) ends]
      simp only [bind, Except.bind, kind, if_true]

theorem Reads.ranks {primary : Caller} (inner : Reads .primary room primary) :
    Reads .compare room (ranks primary) :=
  have powers : Reads .power room _ := inner.chain .power (by decide)
  have terms : Reads .term room _ := powers.percented.chain .term (by decide)
  have sums : Reads .additive room _ := terms.chain .additive (by decide)
  have joins : Reads .concat room _ := sums.chain .concat (by decide)
  joins.chain .compare (by decide)

/-! ### Leaves and groups -/

theorem looking_of_le {calls : Nat} (enough : 3 ≤ calls) (read : Caller) (tokens : List Token) :
    looking read calls tokens = read (calls - 1) tokens :=
  if_neg (Nat.not_lt.2 enough)

theorem of_looking_eq_ok {calls : Nat} {tokens : List Token} {o : Expr × List Token}
    (h : looking read calls tokens = .ok o) :
    3 ≤ calls ∧ read (calls - 1) tokens = .ok o := by
  by_cases enough : 3 ≤ calls
  · exact ⟨enough, looking_of_le enough read tokens ▸ h⟩
  · rw [looking, if_pos (Nat.not_le.1 enough)] at h
    cases h

theorem derives_of_atom? {t : Token} {a : Atom} (h : t.atom? = some a) :
    Derives .primary [t] (.atom a) := by
  unfold Token.atom? at h
  split at h <;> cases h
  · rename_i kind
    exact .number kind
  · rename_i kind
    exact .text kind
  · rename_i kind
    unfold nameKind
    split
    · rename_i word
      exact .truth kind word
    · rename_i word
      split
      · rename_i key
        exact .cell kind word key
      · rename_i key
        exact .name kind word (eq_false_of_ne_true key)

theorem Derives.exists_atom? {ts : List Token} {a : Atom} (h : Derives .primary ts (.atom a)) :
    ∃ t, ts = [t] ∧ t.atom? = some a := by
  have named : ∀ {t : Token}, t.kind = .name → t.atom? = some ⟨nameKind t.text, t.text, t.start⟩ :=
    fun kind => by simp only [Token.atom?, kind]
  cases h with
  | @number t kind => exact ⟨t, rfl, by simp only [Token.atom?, kind]⟩
  | @text t kind => exact ⟨t, rfl, by simp only [Token.atom?, kind]⟩
  | @truth t kind word =>
    have same : nameKind t.text = .truth := if_pos word
    exact ⟨t, rfl, same ▸ named kind⟩
  | @cell t kind word key =>
    have same : nameKind t.text = .cell := (if_neg word).trans (if_pos key)
    exact ⟨t, rfl, same ▸ named kind⟩
  | @name t kind word key =>
    have same : nameKind t.text = .name := (if_neg word).trans (if_neg (ne_true_of_eq_false key))
    exact ⟨t, rfl, same ▸ named kind⟩
  | operand proper => exact absurd rfl proper

theorem primary_of_atom? {group : Nat → Caller} {t : Token} {a : Atom} (h : t.atom? = some a)
    {calls : Nat} (enough : 3 ≤ calls) (rest : List Token) :
    primary group calls (t :: rest) = .ok (.atom a, rest) := by
  have leaf : t.kind ≠ .symbol .opening := by
    intro kind
    unfold Token.atom? at h
    rw [kind] at h
    cases h
  rw [primary, looking_of_le enough]
  simp only [leaf, if_false, h]

/-- The reader takes what stands in a group, with its closing parenthesis, and nothing else. It is
called by the reader of a primary. -/
structure ReadsGroup (room : Nat) (group : Nat → Caller) : Prop where
  sound : ∀ opening calls tokens e rest, group opening calls tokens = .ok (e, rest) →
    ∃ (ts : List Token) (closing : Token) (inner : Expr), tokens = ts ++ closing :: rest ∧
      closing.kind = .symbol .closing ∧ Derives .compare ts inner ∧
      e = .group opening inner closing.start ∧ inner.nesting + 1 ≤ room ∧
      inner.height ≤ calls - 1
  complete : ∀ (opening calls : Nat) (ts : List Token) (inner : Expr) (closing : Token)
    (rest : List Token), Derives .compare ts inner → closing.kind = .symbol .closing →
      inner.nesting + 1 ≤ room → inner.height ≤ calls - 1 →
        group opening calls (ts ++ closing :: rest) = .ok (.group opening inner closing.start, rest)

theorem readsGroup_refused (refusal : ParseError) :
    ReadsGroup 0 fun _ => looking fun _ _ => .error refusal where
  sound _ _ _ _ _ h := nomatch (of_looking_eq_ok h).2
  complete _ _ _ _ _ _ _ _ deep := absurd deep (Nat.not_succ_le_zero _)

theorem Reads.closed (inner : Reads .compare room read) (stop : Nat) :
    ReadsGroup (room + 1) (closed stop read) where
  sound opening calls tokens e rest h := by
    obtain ⟨_, h⟩ := of_looking_eq_ok h
    obtain ⟨⟨inside, after⟩, reads, later⟩ := exists_of_bind h
    obtain ⟨ts, rfl, derives, fits⟩ := inner.sound _ _ _ _ reads
    cases after with
    | nil => cases later
    | cons t after =>
      simp only at later
      split at later
      · rename_i kind
        cases later
        exact ⟨ts, t, inside, rfl, kind, derives, rfl, Nat.succ_le_succ fits.nesting, fits.height⟩
      · cases later
  complete opening calls ts inside closing rest derives kind deep high := by
    have ends : Level.compare.Stops (closing :: rest) := Level.stops_cons kind (by decide) rest
    have fits : inside.Fits .compare room (calls - 1) := ⟨Nat.le_of_succ_le_succ deep, high⟩
    have enough : 3 ≤ calls := by
      have low := inside.ten_le_height
      omega
    unfold Formula.closed
    rw [looking_of_le enough, inner.complete _ ts inside _ derives fits ends]
    simp only [bind, Except.bind, kind, if_true]

theorem ReadsGroup.primary {group : Nat → Caller} (inner : ReadsGroup room group) :
    Reads .primary room (primary group) where
  sound calls tokens e rest h := by
    obtain ⟨enough, h⟩ := of_looking_eq_ok h
    cases tokens with
    | nil => cases h
    | cons t after =>
      simp only at h
      split at h
      · rename_i opens
        obtain ⟨ts, closing, inside, rfl, closes, derives, rfl, fits⟩ := inner.sound _ _ _ _ _ h
        exact ⟨t :: ts ++ [closing], by simp, .group opens derives closes, Expr.fits_group.2 fits⟩
      · split at h
        · rename_i a leaf
          cases h
          exact ⟨[t], rfl, derives_of_atom? leaf, Expr.fits_atom.2 enough⟩
        · cases h
  complete calls taken e rest h fits _ := by
    cases e with
    | atom a =>
      obtain ⟨t, rfl, leaf⟩ := h.exists_atom?
      exact primary_of_atom? leaf (Expr.fits_atom.1 fits) rest
    | group opening inside closing =>
      obtain ⟨deep, high⟩ := Expr.fits_group.1 fits
      have enough : 3 ≤ calls := by
        have low := inside.ten_le_height
        omega
      rw [Formula.primary, looking_of_le enough]
      cases h with
      | @group opening closing ts _ opens derives closes =>
        simp only [List.cons_append, List.append_assoc, List.nil_append, opens, if_true]
        exact inner.complete opening.start _ ts inside closing rest derives closes deep high
      | operand proper => exact absurd rfl proper
    | percent operand sign =>
      cases h with
      | operand proper => exact absurd rfl proper
    | binary op sign left right =>
      cases h with
      | operand proper => exact absurd rfl proper
      | operation sign => cases sign

/-- Expressions are read just as the grammar has them, as far as there is room. -/
theorem reads_expression (refusal : ParseError) (stop room : Nat) :
    Reads .compare room (expression refusal stop room) := by
  induction room with
  | zero => exact (readsGroup_refused refusal).primary.ranks
  | succ room ih => exact (ih.closed stop).primary.ranks

/-- Tokens have one tree. -/
theorem derives_unique {ts : List Token} {e e' : Expr} (h : Derives .compare ts e)
    (h' : Derives .compare ts e') : e = e' := by
  have reads := reads_expression .nestedTooDeeply 0 (max e.nesting e'.nesting)
  have first := reads.complete (max e.height e'.height) ts e [] h
    ⟨Nat.le_max_left _ _, Nat.le_max_left _ _⟩ (Level.stops_nil _)
  have second := reads.complete (max e.height e'.height) ts e' [] h'
    ⟨Nat.le_max_right _ _, Nat.le_max_right _ _⟩ (Level.stops_nil _)
  cases first.symm.trans second
  rfl

/-! ## Formulas -/

theorem lexeme?_equal (cs : List Char) : lexeme? ('=' :: cs) = some ⟨some (.symbol .equal), 1⟩ :=
  lexeme?_of_symbol rfl

/-- The first token of a text that starts with an equals sign is that sign. -/
theorem scan_sign {text : String} (starts : text.toList.head? = some '=') {tokens : List Token}
    (h : scan text = .ok tokens) : ∃ rest, tokens = Symbol.equal.token 0 :: rest := by
  unfold scan at h
  rcases chars : text.toList with _ | ⟨c, cs⟩ <;> rw [chars] at starts h
  · cases starts
  · cases starts
    rw [scanFrom_cons, lexeme?_equal] at h
    obtain ⟨later, _, last⟩ := exists_of_bind h
    cases last
    exact ⟨later, rfl⟩

/-- There is room for an expression under the limit. -/
structure Limit.Allows (limit : Limit) (e : Expr) : Prop where
  nesting : e.nesting ≤ limit.depth.toNat
  height : e.height ≤ limit.stack

theorem Limit.allows_atom (limit : Limit) (a : Atom) : limit.Allows (.atom a) :=
  ⟨Nat.zero_le _, limit.enough⟩

/-- Two expressions take the same room. -/
structure Expr.SameRoom (e d : Expr) : Prop where
  nesting : e.nesting = d.nesting
  height : e.height = d.height

namespace Expr.SameRoom

variable {e d l l' r r' : Expr}

theorem group (h : e.SameRoom d) (o o' c c' : Nat) :
    (Expr.group o e c).SameRoom (.group o' d c') :=
  ⟨congrArg (· + 1) h.nesting, congrArg (· + 9) h.height⟩

theorem percent (h : e.SameRoom d) (sign sign' : Nat) :
    (Expr.percent e sign).SameRoom (.percent d sign') := ⟨h.nesting, h.height⟩

theorem binary (left : l.SameRoom l') (right : r.SameRoom r') (op : BinaryOp) (sign sign' : Nat) :
    (Expr.binary op sign l r).SameRoom (.binary op sign' l' r') where
  nesting := congrArg₂ max left.nesting right.nesting
  height := congrArg₂ (fun m n => max m (n + aside op.rank)) left.height right.height

theorem allows (h : e.SameRoom d) {limit : Limit} (fits : limit.Allows d) : limit.Allows e :=
  ⟨h.nesting ▸ fits.nesting, h.height ▸ fits.height⟩

end Expr.SameRoom

/-- A text is read as a formula just where the grammar has it and there is room for it. -/
theorem parse_eq_ok_iff {text : String} {limit : Limit} {f : Formula} :
    parse text limit = .ok f ↔ f.text = text ∧ text.toList.head? = some '=' ∧
      ∃ tokens, scan text = .ok (Symbol.equal.token 0 :: tokens) ∧
        Derives .compare tokens f.body ∧ limit.Allows f.body := by
  have reads := reads_expression (.nestedPast limit.depth) text.length limit.depth.toNat
  unfold parse
  constructor
  · intro h
    split at h
    · cases h
    rename_i starts
    obtain ⟨tokens, scanned, h⟩ := exists_of_bind h
    obtain ⟨⟨body, rest⟩, took, h⟩ := exists_of_bind h
    have starts : text.toList.head? = some '=' := not_not.1 starts
    obtain ⟨later, rfl⟩ := scan_sign starts scanned
    obtain ⟨taken, same, derives, fits⟩ := reads.sound _ _ _ _ took
    cases rest with
    | nil =>
      cases h
      have whole : taken = later := by simpa using same.symm
      exact ⟨rfl, starts, later, scanned, whole ▸ derives, fits.nesting, fits.height⟩
    | cons t after => cases h
  · rintro ⟨rfl, starts, tokens, scanned, derives, fits⟩
    have took := reads.complete limit.stack tokens f.body [] derives ⟨fits.nesting, fits.height⟩
      (Level.stops_nil _)
    rw [List.append_nil] at took
    rw [if_neg (not_not.2 starts), scanned]
    simp only [bind, Except.bind, List.drop_succ_cons, List.drop_zero, took]

theorem Derives.tokens_eq {level : Level} {ts : List Token} {e : Expr} (h : Derives level ts e)
    (written : ∀ t ∈ ts, t.Written) : ts = e.tokens := by
  induction h with
  | @number t kind => exact congrArg (fun k => [Token.mk k t.text t.start]) kind
  | @text t kind => exact congrArg (fun k => [Token.mk k t.text t.start]) kind
  | @truth t kind => exact congrArg (fun k => [Token.mk k t.text t.start]) kind
  | @cell t kind => exact congrArg (fun k => [Token.mk k t.text t.start]) kind
  | @name t kind => exact congrArg (fun k => [Token.mk k t.text t.start]) kind
  | @group opening closing ts e opens inner closes ih =>
    have first := Token.eq_token (written opening (by simp)) opens
    have last := Token.eq_token (written closing (by simp)) closes
    rw [Expr.tokens, ← ih fun t ht => written t (by simp [ht]), ← first, ← last]
  | operand proper inner ih => exact ih written
  | @operation level ts us t op left right sign kind first second ihl ihr =>
    have middle := Token.eq_token (written t (by simp)) kind
    rw [Expr.tokens, ← ihl fun t ht => written t (by simp [ht]),
      ← ihr fun t ht => written t (by simp [ht]), ← middle]
  | @percent ts t e kind inner ih =>
    have last := Token.eq_token (written t (by simp)) kind
    rw [Expr.tokens, ← ih fun t ht => written t (by simp [ht]), ← last]

/-- A formula that is read is made of the tokens of its text, the first one aside. -/
theorem tokens_of_parse {text : String} {limit : Limit} {f : Formula}
    (h : parse text limit = .ok f) :
    f.text = text ∧ ∃ tokens, scan text = .ok tokens ∧ f.body.tokens = tokens.drop 1 := by
  obtain ⟨same, _, tokens, scanned, derives, _⟩ := parse_eq_ok_iff.1 h
  have written : ∀ t ∈ tokens, t.Written :=
    fun t ht => scan_written scanned t (List.mem_cons_of_mem _ ht)
  exact ⟨same, _, scanned, (derives.tokens_eq written).symm⟩

theorem written_of_parse {text : String} {limit : Limit} {f : Formula}
    (h : parse text limit = .ok f) : ∀ t ∈ f.body.tokens, t.Written := by
  obtain ⟨_, tokens, scanned, same⟩ := tokens_of_parse h
  intro t ht
  rw [same] at ht
  exact scan_written scanned t (List.mem_of_mem_drop ht)

end Worksheet.Formula
