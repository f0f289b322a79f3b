-- Expressions that stand in expressions. A place is a way down into an expression. What stands at
-- it is a phrase of its own, and a primary can stand there in its stead: the tokens before it and
-- after it go on to be what they were.
import Mathlib.Logic.Function.Iterate
import Worksheet.Formula.Evaluation
import Worksheet.Proofs.Formula.Grammar
import Worksheet.Proofs.Formula.Scanning

namespace Worksheet.Formula

/-! ## Moving -/

/-- The expression with every position changed. -/
def Expr.move (m : Nat → Nat) : Expr → Expr
  | .atom a => .atom { a with start := m a.start }
  | .group opening inner closing => .group (m opening) (inner.move m) (m closing)
  | .percent operand sign => .percent (operand.move m) (m sign)
  | .binary op sign left right => .binary op (m sign) (left.move m) (right.move m)

theorem Expr.sameRoom_move (m : Nat → Nat) (e : Expr) : (e.move m).SameRoom e := by
  induction e with
  | atom a => exact ⟨rfl, rfl⟩
  | group o inner c ih => exact ih.group ..
  | percent operand sign ih => exact ih.percent ..
  | binary op sign left right ihl ihr => exact ihl.binary ihr ..

theorem Expr.value_move (lookup : Lookup) (m : Nat → Nat) (e : Expr) :
    (e.move m).value lookup = e.value lookup := by
  induction e with
  | atom a => rfl
  | group o inner c ih => simp only [move, value, ih]
  | percent operand sign ih => simp only [move, value, ih]
  | binary op sign left right ihl ihr => simp only [move, value, ihl, ihr]

/-- Tokens that are moved are a phrase of the same level, and its tree is moved. -/
theorem Derives.move {level : Level} {ts : List Token} {e : Expr} (h : Derives level ts e)
    (m : Nat → Nat) : Derives level (ts.map (.move m)) (e.move m) := by
  induction h with
  | @number t kind => exact .number (t := t.move m) kind
  | @text t kind => exact .text (t := t.move m) kind
  | @truth t kind word => exact .truth (t := t.move m) kind word
  | @cell t kind word key => exact .cell (t := t.move m) kind word key
  | @name t kind word key => exact .name (t := t.move m) kind word key
  | @group opening closing ts e opens inner closes ih =>
    have opens' : (opening.move m).kind = .symbol .opening := opens
    have closes' : (closing.move m).kind = .symbol .closing := closes
    simpa [Expr.move] using Derives.group opens' ih closes'
  | operand proper inner ih => exact .operand proper ih
  | @operation level ts us t op left right sign kind first second ihl ihr =>
    have kind' : (t.move m).kind = .symbol op.symbol := kind
    simpa [Expr.move] using Derives.operation sign kind' ihl ihr
  | @percent ts t e kind inner ih =>
    have kind' : (t.move m).kind = .symbol .percent := kind
    simpa [Expr.move] using Derives.percent kind' ih

/-! ## Levels -/

theorem Derives.of_operands {level : Level} {ts : List Token} {e : Expr} (n : Nat)
    (h : Derives (Level.operand^[n] level) ts e) : Derives level ts e := by
  induction n with
  | zero => exact h
  | succ n ih =>
    rw [Function.iterate_succ_apply'] at h
    by_cases lowest : Level.operand^[n] level = .primary
    · rw [lowest] at h
      exact ih (lowest ▸ h)
    · exact ih (.operand lowest h)

theorem Derives.of_any {level : Level} {ts : List Token} {e : Expr} (h : Derives level ts e) :
    Derives .compare ts e := by
  have down : Level.operand^[level.rank] .compare = level := by cases level <;> rfl
  exact .of_operands level.rank (down.symm ▸ h)

theorem Derives.to_any {ts : List Token} {e : Expr} (h : Derives .primary ts e) (level : Level) :
    Derives level ts e := by
  have down : Level.operand^[6] level = .primary := by cases level <;> rfl
  exact .of_operands 6 (down.symm ▸ h)

/-! ## Places -/

/-- A way down into an expression, to where another one stands. -/
inductive Place
  | here
  | inGroup (opening : Nat) (inner : Place) (closing : Nat)
  | underPercent (operand : Place) (sign : Nat)
  | onLeft (op : BinaryOp) (sign : Nat) (left : Place) (right : Expr)
  | onRight (op : BinaryOp) (sign : Nat) (left : Expr) (right : Place)

namespace Place

def fill : Place → Expr → Expr
  | here, e => e
  | inGroup opening inner closing, e => .group opening (inner.fill e) closing
  | underPercent operand sign, e => .percent (operand.fill e) sign
  | onLeft op sign left right, e => .binary op sign (left.fill e) right
  | onRight op sign left right, e => .binary op sign left (right.fill e)

/-- The place with every position around it changed. -/
def move (m : Nat → Nat) : Place → Place
  | here => here
  | inGroup opening inner closing => inGroup (m opening) (inner.move m) (m closing)
  | underPercent operand sign => underPercent (operand.move m) (m sign)
  | onLeft op sign left right => onLeft op (m sign) (left.move m) (right.move m)
  | onRight op sign left right => onRight op (m sign) (left.move m) (right.move m)

theorem move_fill (m : Nat → Nat) (place : Place) (e : Expr) :
    (place.fill e).move m = (place.move m).fill (e.move m) := by
  induction place with
  | here => rfl
  | inGroup o inner c ih => simp only [fill, move, Expr.move, ih]
  | underPercent operand sign ih => simp only [fill, move, Expr.move, ih]
  | onLeft op sign left right ih => simp only [fill, move, Expr.move, ih]
  | onRight op sign left right ih => simp only [fill, move, Expr.move, ih]

theorem sameRoom_fill {e d : Expr} (same : e.SameRoom d) (place : Place) :
    (place.fill e).SameRoom (place.fill d) := by
  induction place with
  | here => exact same
  | inGroup o inner c ih => exact ih.group ..
  | underPercent operand sign ih => exact ih.percent ..
  | onLeft op sign left right ih => exact ih.binary ⟨rfl, rfl⟩ ..
  | onRight op sign left right ih => exact Expr.SameRoom.binary ⟨rfl, rfl⟩ ih ..

/-- What stands at a place takes no more room than the whole. -/
theorem allows_of_fill {limit : Limit} {place : Place} {e : Expr}
    (fits : limit.Allows (place.fill e)) : limit.Allows e := by
  induction place with
  | here => exact fits
  | inGroup o inner c ih =>
    exact ih ⟨Nat.le_of_succ_le fits.nesting, Nat.le_of_add_right_le fits.height⟩
  | underPercent operand sign ih => exact ih ⟨fits.nesting, fits.height⟩
  | onLeft op sign left right ih =>
    exact ih ⟨(Nat.max_le.1 fits.nesting).1, (Nat.max_le.1 fits.height).1⟩
  | onRight op sign left right ih =>
    exact ih ⟨(Nat.max_le.1 fits.nesting).2, Nat.le_of_add_right_le (Nat.max_le.1 fits.height).2⟩

theorem value_fill_congr {lookup : Lookup} {e d : Expr} (same : e.value lookup = d.value lookup)
    (place : Place) : (place.fill e).value lookup = (place.fill d).value lookup := by
  induction place with
  | here => exact same
  | inGroup o inner c ih => simp only [fill, Expr.value, ih]
  | underPercent operand sign ih => simp only [fill, Expr.value, ih]
  | onLeft op sign left right ih => simp only [fill, Expr.value, ih]
  | onRight op sign left right ih => simp only [fill, Expr.value, ih]

end Place

/-- The tokens before and after a place make a phrase of the level with every primary that is put
there, also when they are moved. -/
def Framed (level : Level) (place : Place) (front back : List Token) : Prop :=
  ∀ (m : Nat → Nat) (us : List Token) (d : Expr), Derives .primary us d →
    Derives level (front.map (.move m) ++ us ++ back.map (.move m)) ((place.move m).fill d)

theorem framed_here (level : Level) : Framed level .here [] [] := by
  intro m us d lone
  simpa [Place.fill, Place.move] using lone.to_any level

theorem Framed.operand {level : Level} {place : Place} {front back : List Token}
    (proper : level ≠ .primary) (h : Framed level.operand place front back) :
    Framed level place front back :=
  fun m us d lone => .operand proper (h m us d lone)

theorem Framed.group {place : Place} {front back : List Token} {opening closing : Token}
    (opens : opening.kind = .symbol .opening) (closes : closing.kind = .symbol .closing)
    (h : Framed .compare place front back) :
    Framed .primary (.inGroup opening.start place closing.start) (opening :: front)
      (back ++ [closing]) := by
  intro m us d lone
  have opens' : (opening.move m).kind = .symbol .opening := opens
  have closes' : (closing.move m).kind = .symbol .closing := closes
  simpa [Place.fill, Place.move] using Derives.group opens' (h m us d lone) closes'

theorem Framed.percent {place : Place} {front back : List Token} {t : Token}
    (kind : t.kind = .symbol .percent) (h : Framed .power place front back) :
    Framed .unary (.underPercent place t.start) front (back ++ [t]) := by
  intro m us d lone
  have kind' : (t.move m).kind = .symbol .percent := kind
  simpa [Place.fill, Place.move] using Derives.percent kind' (h m us d lone)

theorem Framed.left {level : Level} {place : Place} {front back ts : List Token} {t : Token}
    {op : BinaryOp} {right : Expr} (sign : op.symbol ∈ level.signs)
    (kind : t.kind = .symbol op.symbol) (h : Framed level place front back)
    (second : Derives level.operand ts right) :
    Framed level (.onLeft op t.start place right) front (back ++ t :: ts) := by
  intro m us d lone
  have kind' : (t.move m).kind = .symbol op.symbol := kind
  simpa [Place.fill, Place.move] using
    Derives.operation sign kind' (h m us d lone) (second.move m)

theorem Framed.right {level : Level} {place : Place} {front back ts : List Token} {t : Token}
    {op : BinaryOp} {left : Expr} (sign : op.symbol ∈ level.signs)
    (kind : t.kind = .symbol op.symbol) (first : Derives level ts left)
    (h : Framed level.operand place front back) :
    Framed level (.onRight op t.start left place) (ts ++ t :: front) back := by
  intro m us d lone
  have kind' : (t.move m).kind = .symbol op.symbol := kind
  simpa [Place.fill, Place.move] using
    Derives.operation sign kind' (first.move m) (h m us d lone)

/-- What stands at a place of a phrase is a phrase, with tokens before it and after it. -/
theorem Derives.at_place {level : Level} {ts : List Token} {place : Place} {e : Expr}
    (h : Derives level ts (place.fill e)) :
    ∃ front inner back, ts = front ++ inner ++ back ∧ Derives .compare inner e ∧
      Framed level place front back := by
  generalize whole : place.fill e = x at h
  have whole_here : ∀ {level : Level} {ts : List Token}, Derives level ts e →
      ∃ front inner back, ts = front ++ inner ++ back ∧ Derives .compare inner e ∧
        Framed level .here front back :=
    fun h => ⟨[], _, [], by simp, h.of_any, framed_here _⟩
  -- The place is here, or leads into a part of the phrase; an operand alone leaves it as it is.
  induction h generalizing place with
  | number kind => cases place <;> cases whole; exact whole_here (.number kind)
  | text kind => cases place <;> cases whole; exact whole_here (.text kind)
  | truth kind word => cases place <;> cases whole; exact whole_here (.truth kind word)
  | cell kind word key => cases place <;> cases whole; exact whole_here (.cell kind word key)
  | name kind word key => cases place <;> cases whole; exact whole_here (.name kind word key)
  | group opens inner closes ih =>
    cases place with
    | here =>
      cases whole
      exact whole_here (.group opens inner closes)
    | inGroup =>
      cases whole
      obtain ⟨front, us, back, rfl, derives, framed⟩ := ih rfl
      exact ⟨_ :: front, us, _, by simp, derives, framed.group opens closes⟩
    | _ => cases whole
  | operand proper inner ih =>
    obtain ⟨front, us, back, rfl, derives, framed⟩ := ih whole
    exact ⟨front, us, back, rfl, derives, framed.operand proper⟩
  | operation sign kind first second ihl ihr =>
    cases place with
    | here =>
      cases whole
      exact whole_here (.operation sign kind first second)
    | onLeft =>
      cases whole
      obtain ⟨front, us, back, rfl, derives, framed⟩ := ihl rfl
      exact ⟨front, us, _, by simp, derives, framed.left sign kind second⟩
    | onRight =>
      cases whole
      obtain ⟨front, us, back, rfl, derives, framed⟩ := ihr rfl
      exact ⟨_, us, back, by simp, derives, framed.right sign kind first⟩
    | _ => cases whole
  | percent kind inner ih =>
    cases place with
    | here =>
      cases whole
      exact whole_here (.percent kind inner)
    | underPercent =>
      cases whole
      obtain ⟨front, us, back, rfl, derives, framed⟩ := ih rfl
      exact ⟨front, us, _, by simp, derives, framed.percent kind⟩
    | _ => cases whole

end Worksheet.Formula
