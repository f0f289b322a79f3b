-- The ways through a formula. An evaluation goes down the left side of a chain of operators in a
-- loop and comes up again with one operator after the other. It comes to what plain recursion comes
-- to, and asks for the cells that the outline of the formula lists, as far as it gets.
import Worksheet.Proofs.Formula.Results

namespace Worksheet.Formula

open Worksheet.Text (upper)

structure Rung where
  op : BinaryOp
  right : Expr

/-- The way down the left side of an expression: the operators that are met, each put before those
that were met above it, and the operand at the lower end. -/
def Expr.descend : List Rung → Expr → List Rung × Expr
  | above, .binary op _ left right => left.descend (⟨op, right⟩ :: above)
  | above, .atom a => (above, .atom a)
  | above, .group o inner c => (above, .group o inner c)
  | above, .percent operand sign => (above, .percent operand sign)

/-- The way up: each operator is applied to the value from below and that of its right operand. -/
def climb (interpret : Expr → Reading Value) (v : Value) (rungs : List Rung) : Reading Value :=
  rungs.foldlM (fun v rung => do
    let w ← interpret rung.right
    Reading.ofExcept (rung.op.apply v w)) v

/-- An interpreter that goes down the left side of every chain of operators, takes the value of the
operand at the lower end, and climbs up again. -/
structure Climbs (lookup : Lookup) (interpret : Expr → Reading Value) : Prop where
  atom : ∀ a, interpret (.atom a) = a.value lookup
  group : ∀ o inner c, interpret (.group o inner c) = interpret inner
  percent : ∀ operand sign, interpret (.percent operand sign) = do
    let v ← interpret operand
    Reading.ofFormula (hundredth v)
  binary : ∀ op sign left right, interpret (.binary op sign left right) = do
    let (rungs, lowest) := (Expr.binary op sign left right).descend []
    let v ← interpret lowest
    climb interpret v rungs

variable {lookup : Lookup} {interpret : Expr → Reading Value}

theorem climb_cons (v : Value) (op : BinaryOp) (right : Expr) (rungs : List Rung) :
    climb interpret v (⟨op, right⟩ :: rungs) = (do
      let w ← interpret right
      let u ← Reading.ofExcept (op.apply v w)
      climb interpret u rungs) := by
  simp [climb, List.foldlM_cons]

/-- The interpreter does what recursion does at the lower end of the left side of an expression,
and at the right operands on the way there. -/
def FollowsAlong (lookup : Lookup) (interpret : Expr → Reading Value) : Expr → Prop
  | .binary _ _ left right =>
    FollowsAlong lookup interpret left ∧ interpret right = right.value lookup
  | e => interpret e = e.value lookup

/-- Down from an expression and up again comes to its value, and goes on with what is above. -/
theorem FollowsAlong.climb_descend {e : Expr} (h : FollowsAlong lookup interpret e)
    (above : List Rung) :
    (do
      let v ← interpret (e.descend above).2
      climb interpret v (e.descend above).1) = (do
      let v ← e.value lookup
      climb interpret v above) := by
  induction e generalizing above with
  | atom a => rw [Expr.descend, h]
  | group o inner c => rw [Expr.descend, h]
  | percent operand sign => rw [Expr.descend, h]
  | binary op sign left right ihl =>
    rw [Expr.descend, ihl h.1, Expr.value]
    simp only [climb_cons, h.2, bind_assoc]

theorem FollowsAlong.binary_eq {op : BinaryOp} {sign : Nat} {left right : Expr}
    (h : FollowsAlong lookup interpret (.binary op sign left right)) :
    (do
      let (rungs, lowest) := (Expr.binary op sign left right).descend []
      let v ← interpret lowest
      climb interpret v rungs) = (Expr.binary op sign left right).value lookup :=
  (h.climb_descend []).trans (by simp [climb])

/-- By induction over the expression: the operands of a chain are parts of it. -/
theorem Climbs.follows (h : Climbs lookup interpret) (e : Expr) :
    interpret e = e.value lookup ∧ FollowsAlong lookup interpret e := by
  induction e with
  | atom a => exact ⟨h.atom a, h.atom a⟩
  | group o inner c ih =>
    have same := (h.group o inner c).trans ih.1
    exact ⟨same, same⟩
  | percent operand sign ih =>
    have same : interpret (.percent operand sign) = (Expr.percent operand sign).value lookup := by
      rw [h.percent, ih.1, Expr.value]
    exact ⟨same, same⟩
  | binary op sign left right ihl ihr =>
    have along : FollowsAlong lookup interpret (.binary op sign left right) := ⟨ihl.2, ihr.1⟩
    exact ⟨(h.binary op sign left right).trans along.binary_eq, along⟩

theorem followsAlong_of_eq (same : ∀ e, interpret e = e.value lookup) (e : Expr) :
    FollowsAlong lookup interpret e := by
  induction e with
  | binary op sign left right ihl _ => exact ⟨ihl, same right⟩
  | _ => exact same _

/-- To climb is to do what recursion does. -/
theorem climbs_iff : Climbs lookup interpret ↔ ∀ e, interpret e = e.value lookup := by
  refine ⟨fun h e => (h.follows e).1, fun same => ⟨fun a => same _, ?_, ?_, ?_⟩⟩
  · intro o inner c
    rw [same, same, Expr.value]
  · intro operand sign
    rw [same, same, Expr.value]
  · intro op sign left right
    rw [same, (followsAlong_of_eq same _).binary_eq]

/-- An evaluation climbs, and every interpreter that does so comes to what plain recursion comes to,
a value or a fault, and asks for the same keys in the same order, however long a chain is and
whatever operators stand in it. -/
theorem climbing_is_recursion (lookup : Lookup) :
    Climbs lookup (Expr.compute lookup) ∧
      ∀ interpret, Climbs lookup interpret → ∀ e : Expr,
        (interpret e).outcome = (e.value lookup).outcome ∧
          (interpret e).keys = (e.value lookup).keys := by
  refine ⟨climbs_iff.2 fun e => e.compute_eq_value lookup, fun interpret climbs e => ?_⟩
  rw [climbs_iff.1 climbs e]
  exact ⟨rfl, rfl⟩

/-- In a chain with operators of three levels a key that is not known ends the evaluation before the
last key is asked for. -/
theorem climbing_is_recursion_of_levels :
    ∃ f, parse "=A1-1<c1&B1" usualLimit = .ok f ∧ Climbs mixedLookup (Expr.compute mixedLookup) ∧
      (f.body.compute mixedLookup).outcome = (f.body.value mixedLookup).outcome ∧
      (f.body.compute mixedLookup).keys = ["A1", "C1"] := by
  have asked : (parse "=A1-1<c1&B1" usualLimit).toOption.map
      (fun f => (f.body.value mixedLookup).keys) = some ["A1", "C1"] := by
    decide +kernel
  obtain ⟨f, found, keys⟩ := Option.map_eq_some_iff.1 asked
  obtain ⟨climbs, same⟩ := climbing_is_recursion mixedLookup
  obtain ⟨outcome, order⟩ := same (Expr.compute mixedLookup) climbs f.body
  exact ⟨f, eq_ok_of_toOption found, climbs, outcome, order.trans keys⟩

/-- An evaluation asks for the cells that the outline of a formula lists, in upper case, in its order
and as often as it lists them: for all of them where it comes to a value, and else for some from
the front of the list. -/
theorem evaluation_asks_in_outline_order (lookup : Lookup) (f : Formula) :
    (f.body.compute lookup).keys <+: (f.cells.map fun a => upper a.text) ∧
      ∀ v, (f.body.compute lookup).outcome = .ok v →
        (f.body.compute lookup).keys = f.cells.map fun a => upper a.text := by
  have names : (f.cells.map fun a => upper a.text) = f.body.references := f.references_eq
  rw [Expr.compute_eq_value, names]
  exact (f.body.asksFrom_value lookup).keys

/-- A key that is named twice is asked for twice; after a key that is not known no more are. -/
theorem evaluation_asks_in_outline_order_of_repeats :
    (∃ f v, parse "=(a1+A1)%*a1" usualLimit = .ok f ∧
      (f.body.compute mixedLookup).outcome = .ok v ∧
      (f.body.compute mixedLookup).keys = ["A1", "A1", "A1"]) ∧
    ∃ f, parse "=a1+(C1)^b1" usualLimit = .ok f ∧
      (f.cells.map fun a => upper a.text) = ["A1", "C1", "B1"] ∧
      (f.body.compute mixedLookup).keys <+: ["A1", "C1", "B1"] := by
  constructor
  · have listed : (parse "=(a1+A1)%*a1" usualLimit).toOption.map
        (fun f => (f.cells.map fun a => upper a.text,
          (f.body.compute mixedLookup).outcome.toOption.isSome)) =
          some (["A1", "A1", "A1"], true) := by
      decide +kernel
    obtain ⟨f, found, facts⟩ := Option.map_eq_some_iff.1 listed
    obtain ⟨cells, comes⟩ := Prod.mk.inj facts
    obtain ⟨v, came⟩ := Option.isSome_iff_exists.1 comes
    have outcome := eq_ok_of_toOption came
    have whole := (evaluation_asks_in_outline_order mixedLookup f).2 v outcome
    exact ⟨f, v, eq_ok_of_toOption found, outcome, whole.trans cells⟩
  · have listed : (parse "=a1+(C1)^b1" usualLimit).toOption.map
        (fun f => f.cells.map fun a => upper a.text) = some ["A1", "C1", "B1"] := by
      decide +kernel
    obtain ⟨f, found, cells⟩ := Option.map_eq_some_iff.1 listed
    have front := (evaluation_asks_in_outline_order mixedLookup f).1
    exact ⟨f, eq_ok_of_toOption found, cells, cells ▸ front⟩

end Worksheet.Formula
