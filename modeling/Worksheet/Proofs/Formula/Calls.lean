-- How many calls of the interpreter are open at one time. A chain of operators takes one call,
-- however long it is, and calls for operands of a tighter level; only a group goes back to the
-- loosest one. So there is a call for each level at most, over again in every group.
import Worksheet.Proofs.Formula.Places
import Worksheet.Proofs.Formula.Traversal

namespace Worksheet.Formula

/-- The interpreter where so many calls can be open at one time, this one among them, and a call
past that comes to `full`. A chain of operators is climbed in one call. -/
def Expr.interpretWithin (lookup : Lookup) (full : Reading Value) : Nat → Expr → Reading Value
  | 0, _ => full
  | _ + 1, .atom a => a.value lookup
  | calls + 1, .group _ inner _ => inner.interpretWithin lookup full calls
  | calls + 1, .percent operand _ => do
    let v ← operand.interpretWithin lookup full calls
    Reading.ofFormula (hundredth v)
  | calls + 1, .binary op sign left right => do
    let (rungs, lowest) := (Expr.binary op sign left right).descend []
    let v ← lowest.interpretWithin lookup full calls
    climb (interpretWithin lookup full calls) v rungs

/-- The interpreter of a formula. It is a call too, and the expression is called for in it. -/
def interpretWithin (lookup : Lookup) (full : Reading Value) : Nat → Formula → Reading Value
  | 0, _ => full
  | calls + 1, f => f.body.interpretWithin lookup full calls

variable {lookup : Lookup} {full : Reading Value}

theorem Level.rank_le (level : Level) : level.rank ≤ 6 := by
  cases level <;> decide

theorem Level.rank_operand {level : Level} (proper : level ≠ .primary) :
    level.operand.rank = level.rank + 1 := by
  cases level <;> first | rfl | exact absurd rfl proper

theorem Level.ne_primary_of_sign {level : Level} {s : Symbol} (sign : s ∈ level.signs) :
    level ≠ .primary := by
  rintro rfl
  cases sign

/-- The least rank of what is called for down the left side of a phrase. In a chain that is an
operand; any other phrase is called for itself. -/
def Level.sideRank (level : Level) : Nat :=
  if level.signs = [] then level.rank else level.rank + 1

theorem Level.sideRank_of_sign {level : Level} {s : Symbol} (sign : s ∈ level.signs) :
    level.sideRank = level.rank + 1 := if_neg (List.ne_nil_of_mem sign)

theorem Level.sideRank_le_operand (level : Level) : level.sideRank ≤ level.operand.sideRank := by
  cases level <;> decide

/-- A phrase takes a call for its level and for each one that is tighter, and seven more for
every group in a group. Down its left side it takes calls for the levels that are called for
there. -/
theorem Derives.interpretWithin_eq {level : Level} {ts : List Token} {e : Expr}
    (h : Derives level ts e) :
    (∀ calls, 7 * (e.nesting + 1) ≤ calls + level.rank →
      e.interpretWithin lookup full calls = e.value lookup) ∧
    ∀ calls, 7 * (e.nesting + 1) ≤ calls + level.sideRank →
      FollowsAlong lookup (Expr.interpretWithin lookup full calls) e := by
  have leaf : ∀ (a : Atom) (calls : Nat), 7 * (0 + 1) ≤ calls + 6 →
      (Expr.atom a).interpretWithin lookup full calls = (Expr.atom a).value lookup := by
    intro a calls enough
    cases calls with
    | zero => omega
    | succ calls => rfl
  induction h with
  | number => exact ⟨leaf _, leaf _⟩
  | text => exact ⟨leaf _, leaf _⟩
  | truth => exact ⟨leaf _, leaf _⟩
  | cell => exact ⟨leaf _, leaf _⟩
  | name => exact ⟨leaf _, leaf _⟩
  | @group opening closing ts inner _ _ _ ih =>
    -- Inside, all levels come over again.
    have same : ∀ calls, 7 * (inner.nesting + 1 + 1) ≤ calls + 6 →
        (Expr.group opening.start inner closing.start).interpretWithin lookup full calls =
          inner.value lookup := by
      intro calls enough
      cases calls with
      | zero => omega
      | succ calls =>
        have inside : 7 * (inner.nesting + 1) ≤ calls + 0 := by omega
        exact ih.1 calls inside
    exact ⟨same, same⟩
  | @operand level ts e proper _ ih =>
    have tighter := Level.rank_operand proper
    have side := level.sideRank_le_operand
    exact ⟨fun calls enough => ih.1 calls (by omega), fun calls enough => ih.2 calls (by omega)⟩
  | @operation level ts us t op left right sign _ _ _ ihl ihr =>
    have tighter := Level.rank_operand (Level.ne_primary_of_sign sign)
    have side := Level.sideRank_of_sign sign
    have low := level.rank_le
    have along : ∀ calls, 7 * (max left.nesting right.nesting + 1) ≤ calls + level.sideRank →
        FollowsAlong lookup (Expr.interpretWithin lookup full calls)
          (.binary op t.start left right) :=
      fun calls enough => ⟨ihl.2 calls (by omega), ihr.1 calls (by omega)⟩
    refine ⟨fun calls enough => ?_, along⟩
    rw [Expr.nesting] at enough
    cases calls with
    | zero => omega
    | succ calls => exact (along calls (by omega)).binary_eq
  | @percent ts t e _ _ ih =>
    have same : ∀ calls, 7 * (e.nesting + 1) ≤ calls + 4 →
        (Expr.percent e t.start).interpretWithin lookup full calls =
          (Expr.percent e t.start).value lookup := by
      intro calls enough
      cases calls with
      | zero => omega
      | succ calls =>
        have below : 7 * (e.nesting + 1) ≤ calls + 5 := by omega
        rw [Expr.interpretWithin, ih.1 calls below, Expr.value]
    exact ⟨same, same⟩

/-- The calls that are open at one time are bounded by the depth of groups, and not by the
length of a formula. Where so many can be open, a formula that is read under the limit comes to
its value and asks for its cells, whatever a call past them would come to: there is none. A
limit below zero leaves as much room as zero does. -/
theorem open_calls_are_bounded_by_depth {text : String} {limit : Limit} {f : Formula}
    (parsed : parse text limit = .ok f) (lookup : Lookup) (full : Reading Value) :
    f.interpretWithin lookup full (7 * (limit.depth.toNat + 1) + 1) =
      (Part.formula f).value lookup := by
  obtain ⟨_, _, _, _, derives, fits⟩ := parse_eq_ok_iff.1 parsed
  have deep := fits.nesting
  have enough : 7 * (f.body.nesting + 1) ≤ 7 * (limit.depth.toNat + 1) + Level.compare.rank := by
    simp only [Level.rank]
    omega
  exact (derives.interpretWithin_eq.1 _ enough).trans (f.body.compute_eq_value lookup).symm

/-- A formula with a chain of every level in the one before needs all eight calls that there are
without groups. -/
theorem open_calls_are_bounded_by_depth_of_all_levels :
    ∃ f, parse "=TRUE=TRUE&TRUE+TRUE*TRUE^TRUE%" (0 : Int) = .ok f ∧ ∀ lookup fault,
      f.interpretWithin lookup (throw fault) 8 = (Part.formula f).value lookup ∧
      f.interpretWithin lookup (throw fault) 7 = throw fault := by
  have parsed : parse "=TRUE=TRUE&TRUE+TRUE*TRUE^TRUE%" (0 : Int) =
      .ok ⟨"=TRUE=TRUE&TRUE+TRUE*TRUE^TRUE%",
        .binary .equal 5 (.atom ⟨.truth, "TRUE", 1⟩) <|
        .binary .join 10 (.atom ⟨.truth, "TRUE", 6⟩) <|
        .binary .plus 15 (.atom ⟨.truth, "TRUE", 11⟩) <|
        .binary .times 20 (.atom ⟨.truth, "TRUE", 16⟩) <|
        .percent (.binary .power 25 (.atom ⟨.truth, "TRUE", 21⟩)
          (.atom ⟨.truth, "TRUE", 26⟩)) 30⟩ := by
    decide +kernel
  exact ⟨_, parsed, fun lookup fault =>
    ⟨open_calls_are_bounded_by_depth parsed lookup (throw fault), rfl⟩⟩

end Worksheet.Formula
