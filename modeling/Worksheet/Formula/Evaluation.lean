-- The value of a formula, from a look-up for the cells that it names; the keys that are asked for
-- are kept in order. `Expr.value` says by plain recursion what a value is; `Expr.compute` finds the
-- same value and goes down a chain of operators without nested calls.
import Worksheet.Formula.Outline
import Worksheet.Formula.Parser
import Worksheet.Text.Doubled
import Worksheet.Value

namespace Worksheet.Formula

open Worksheet.Text (disclose upper)

/-! ## Readings -/

/-- The value of the cell with a key, in upper case. -/
abbrev Lookup := String → Except Fault Value

/-- A computation that asks for cells. It keeps the keys that were asked for, the last one first,
and it keeps them also where it fails. -/
abbrev Reading := ExceptT Fault (StateM (List String))

namespace Reading

def outcome {α : Type} (r : Reading α) : Except Fault α := (r.run []).1

def keys {α : Type} (r : Reading α) : List String := (r.run []).2.reverse

def ofExcept {α : Type} : Except Fault α → Reading α
  | .ok a => pure a
  | .error fault => throw fault

/-- A computation that asks for nothing, and fails with a formula error if at all. -/
def ofFormula {α : Type} (x : Except FormulaError α) : Reading α :=
  ofExcept (x.mapError .formula)

def ask (lookup : Lookup) (key : String) : Reading Value := do
  modify (key :: ·)
  ofExcept (lookup key)

end Reading

/-! ## Operators -/

/-- A function of two numbers, the left one converted first. -/
def ofNumbers (f : Float → Float → Except FormulaError Value) (left right : Value) :
    Except FormulaError Value := do
  let x ← left.toNumber
  let y ← right.toNumber
  f x y

/-- A quotient. The divisor is converted first, and it may not be zero. -/
def quotient (left right : Value) : Except FormulaError Value := do
  let y ← right.toNumber
  if y == 0 then .error .divisionByZero
  let x ← left.toNumber
  Value.ofFloat (x / y)

/-- A power of two numbers. -/
def raise (x y : Float) : Except FormulaError Value :=
  if x == 0 && y < 0 then .error .zeroToNegative
  else
    let z := x.pow y
    if z.isNaN then .error (.powerDomain x y)
    else if z.isInf then .error (.powerRange x y)
    else Value.ofFloat z

def joined (left right : Value) : Except Fault Value := do
  let s ← left.display
  let t ← right.display
  .ok (.text (s ++ t))

def comparison (p : Float → Float → Bool) (left right : Value) : Except FormulaError Value :=
  ofNumbers (fun x y => .ok (.boolean (p x y))) left right

def arithmetic (f : Float → Float → Float) (left right : Value) : Except FormulaError Value :=
  ofNumbers (fun x y => Value.ofFloat (f x y)) left right

/-- What an operator makes of two values. -/
def BinaryOp.apply (op : BinaryOp) (left right : Value) : Except Fault Value :=
  match op with
  | equal => .ok (.boolean (left.equals right))
  | unequal => .ok (.boolean (!left.equals right))
  | greater => ofError (comparison (fun x y => y < x) left right)
  | less => ofError (comparison (fun x y => x < y) left right)
  | atLeast => ofError (comparison (fun x y => y ≤ x) left right)
  | atMost => ofError (comparison (fun x y => x ≤ y) left right)
  | join => joined left right
  | plus => ofError (arithmetic (· + ·) left right)
  | minus => ofError (arithmetic (· - ·) left right)
  | times => ofError (arithmetic (· * ·) left right)
  | divide => ofError (quotient left right)
  | power => ofError (ofNumbers raise left right)
where
  ofError (x : Except FormulaError Value) : Except Fault Value := x.mapError .formula

def hundredth (v : Value) : Except FormulaError Value := do
  let x ← v.toNumber
  Value.ofFloat (x * 0.01)

/-! ## Leaves -/

/-- The value that a number is written for. -/
def numberValue (s : String) : Except Fault Value :=
  match Number.read? s with
  | none => .error (.unreadable s)
  | some x => (Value.ofFloat x).mapError .formula

def Atom.value (lookup : Lookup) (a : Atom) : Reading Value :=
  match a.kind with
  | .number => Reading.ofExcept (numberValue a.text)
  | .truth => pure (.boolean (upper a.text = "TRUE"))
  | .text => pure (.text (disclose a.text))
  | .name => throw (.formula (.unsupportedName a.text))
  | .cell => Reading.ask lookup (upper a.text)

/-! ## Expressions -/

/-- The value of an expression: the left operand first, then the right one, then the operator. -/
def Expr.value (lookup : Lookup) : Expr → Reading Value
  | .atom a => a.value lookup
  | .group _ inner _ => inner.value lookup
  | .percent operand _ => do
    let v ← operand.value lookup
    Reading.ofFormula (hundredth v)
  | .binary op _ left right => do
    let v ← left.value lookup
    let w ← right.value lookup
    Reading.ofExcept (op.apply v w)

/-- What is still to be done with the value of an operand, the next thing first. -/
abbrev Pending := List (Value → Reading Value)

/-- Does what is still to be done with a value. -/
def finish : Pending → Value → Reading Value
  | [], v => pure v
  | step :: pending, v => do finish pending (← step v)

/-- The value of an expression, passed on to what is still to be done. Down a chain of operators
each right operand joins what is to be done, and only groups, percent signs and right operands
start a computation of their own. -/
def Expr.computeThen (lookup : Lookup) : Pending → Expr → Reading Value
  | pending, .atom a => do finish pending (← a.value lookup)
  | pending, .group _ inner _ => do finish pending (← inner.computeThen lookup [])
  | pending, .percent operand _ => do
    let v ← operand.computeThen lookup []
    finish pending (← Reading.ofFormula (hundredth v))
  | pending, .binary op _ left right =>
    left.computeThen lookup
      ((fun v => do
        let w ← right.computeThen lookup []
        Reading.ofExcept (op.apply v w)) :: pending)

def Expr.compute (lookup : Lookup) (e : Expr) : Reading Value := e.computeThen lookup []

theorem Expr.computeThen_eq (lookup : Lookup) (pending : Pending) (e : Expr) :
    e.computeThen lookup pending = (do finish pending (← e.value lookup)) := by
  induction e generalizing pending with
  | atom a => simp [computeThen, value]
  | group o inner c ih => simp [computeThen, value, ih, finish]
  | percent operand sign ih => simp [computeThen, value, ih, finish]
  | binary op sign left right ihl ihr => simp [computeThen, value, ihl, ihr, finish]

/-- Both ways give one value, and ask for the same cells in the same order. -/
theorem Expr.compute_eq_value (lookup : Lookup) (e : Expr) : e.compute lookup = e.value lookup := by
  simp [compute, computeThen_eq, finish]

/-! ## Formulas -/

/-- The value of a part. Marks have none. -/
def Part.value (lookup : Lookup) (p : Part) : Reading Value :=
  match p with
  | .formula f => f.body.compute lookup
  | .expr e => e.compute lookup
  | .sign => throw (.leadingSign p.label p.start)
  | .opening _ | .closing _ => throw (.mark p.label p.start)

/-- What a cell takes from an outcome: of a formula error, its code. -/
def settle : Except Fault Value → Except Fault Value
  | .error (.formula e) => .ok (.error e.code)
  | outcome => outcome

/-- What a cell takes from a formula. -/
def outcome (lookup : Lookup) (f : Formula) : Except Fault Value :=
  settle (f.body.compute lookup).outcome

end Worksheet.Formula
