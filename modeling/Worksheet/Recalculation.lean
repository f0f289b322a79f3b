-- Recalculating: the formulas of a wired table are evaluated in the order of its graph, and what
-- they come to is written back under the keys that the entries were sent with.
import Worksheet.Graph.Order
import Worksheet.Wiring

namespace Worksheet

open Worksheet.Text (upper)

namespace Wiring

/-! ## Reading cells -/

/-- The value of a literal cell. Where it is blank the value is zero. -/
def literalValue (c : Cell) : Value := (c.value.bind Value.ofLiteral?).getD .zero

/-- What a formula sees of an entry. An error is seen as zero, and so is what is not known yet. -/
def slotValue (s : Slot) : Value :=
  match s.outcome with
  | some (.error _) => .zero
  | some (.ok v) => v
  | none => if s.isFormula then .zero else literalValue s.cell

/-- What a formula sees of a key. Keys without an entry are seen as zero. -/
def read (w : Wiring) (key : String) : Except Fault Value :=
  if w.graph.contains key then .ok (((w.slots.get? key).map slotValue).getD .zero)
  else .error (.formula (.unknownCell key))

/-! ## Evaluating -/

/-- A wiring, and how many formulas came to an error so far. -/
abbrev Progress := Wiring × Nat

def evaluateFormula (p : Progress) (key : String) (f : Formula) : Except Fault Progress := do
  match ← f.outcome p.1.read with
  | .error code =>
    .ok ((p.1.setOutcome key (.error code)).note (.failed key f.text code), p.2 + 1)
  | v => .ok (p.1.setOutcome key (.ok v), p.2)

/-- Evaluates what stands at a key. What was flagged stays so, and counts. -/
def evaluateKey (p : Progress) (key : String) : Except Fault Progress :=
  match p.1.slots.get? key with
  | none => .ok p
  | some slot =>
    if !slot.isFormula then .ok p
    else
      match slot.tree, slot.outcome with
      | none, _ => .ok (p.1, p.2 + 1)
      | some _, some (.error _) => .ok (p.1, p.2 + 1)
      | some f, _ => evaluateFormula p key f

/-- Evaluates every formula, each after the cells that it reads, and counts the errors. -/
def evaluate (w : Wiring) : Except Fault Progress := do
  let order ← w.graph.order
  order.foldlM evaluateKey (w, 0)

/-! ## Writing back -/

/-- The cell of an entry with a formula, once it has an outcome. -/
def resultCell (formula : String) (key : String) : Option Outcome → Except Fault Cell
  | some (.error code) => .ok ⟨none, some formula, some code.text⟩
  | some (.ok v) => do
    let value ← v.display
    .ok ⟨some value, some formula, none⟩
  | none => .error (.unevaluated key)

/-- What is sent back for an entry. A literal is sent back as it is, and an entry whose key
an earlier one has shows a bad reference. The entry that has the key is told by how it spells it:
every entry has a cell of its own, which no other entry shares. -/
def finalCell (w : Wiring) (entry : String) (cell : Cell) : Except Fault Cell :=
  match cell.formula? with
  | none => .ok cell
  | some formula =>
    match w.slots.get? (upper entry) with
    | none => .error (.noNode (upper entry))
    | some slot =>
      if slot.entry ≠ entry then .ok ⟨none, some formula, some ErrorCode.reference.text⟩
      else resultCell formula (upper entry) slot.outcome

end Wiring

/-! ## Tables -/

/-- A table with its formulas evaluated, and the notes that were taken. -/
structure Recalculated where
  table : Table
  notes : List Note

/-- Wires a table, evaluates it, and writes back what its formulas come to. -/
def Table.recalculate (settings : Settings) (t : Table) : Except Fault Recalculated := do
  let wiring ← Wiring.ofCells settings t.bounds t.cells
  let (wiring, errors) ← wiring.evaluate
  let cells ← t.cells.traverse wiring.finalCell
  .ok { table := { t with cells }
        notes := wiring.notes ++ [.summary t.cells.size t.formulaCount errors] }

end Worksheet
