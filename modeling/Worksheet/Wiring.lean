-- Wiring a table: every formula is read, and every cell that it names gets an edge to it. Keys are
-- upper-cased, and of entries with one key the first counts. An edge that closes a loop is left
-- out and every cell on the loop is flagged, so the graph always has an order.
import Worksheet.Formula.Evaluation
import Worksheet.Graph.Path
import Worksheet.Note
import Worksheet.Table

namespace Worksheet

open Worksheet.Text (upper)

/-- What a formula comes to: an error code, or a value. -/
abbrev Outcome := Except ErrorCode Value

/-- The entry that a key goes by, and what has come of it. -/
structure Slot where
  /-- The key as the entry spells it. -/
  entry : String
  cell : Cell
  /-- The formula, where it can be read. -/
  tree : Option Formula
  /-- What the formula comes to, once it is known. -/
  outcome : Option Outcome

def Slot.isFormula (s : Slot) : Bool := s.cell.formula?.isSome

/-- How a table is worked on. -/
structure Settings where
  /-- How far down formulas are read. -/
  limit : Formula.Limit
  /-- Whether there is a note with the outline of every formula. -/
  outlines : Bool

def Settings.usual : Settings := ⟨Formula.usualLimit, false⟩

/-- A wired table. Keys that are named only by formulas have a node and no slot. -/
structure Wiring where
  graph : Graph
  slots : Roster Slot
  notes : List Note

namespace Wiring

def empty : Wiring := ⟨Graph.empty, Roster.empty, []⟩

def note (w : Wiring) (n : Note) : Wiring := { w with notes := w.notes ++ [n] }

def setOutcome (w : Wiring) (key : String) (o : Outcome) : Wiring :=
  { w with slots := w.slots.modify key fun s => { s with outcome := some o } }

/-- The wiring with a bad reference flagged at a key. -/
def flag (w : Wiring) (key : String) : Wiring := w.setOutcome key (.error .reference)

/-- Wires one reference of the formula at a key. -/
def refer (bounds : Bounds) (key : String) (w : Wiring) (reference : String) :
    Except Fault Wiring := do
  match ← w.graph.cyclePath reference key with
  | some path => .ok ((path.foldl flag w).note (.closesLoop key reference path))
  | none =>
    if ← bounds.contains reference then
      let graph ← (w.graph.ensure reference).addEdge reference key
      .ok { w with graph }
    else .ok ((w.flag key).note (.offGrid key reference))

/-- Wires the formula at a key, whose node is there. -/
def enterFormula (settings : Settings) (bounds : Bounds) (w : Wiring) (key entry : String)
    (cell : Cell) (text : String) : Except Fault Wiring :=
  match Formula.parse text settings.limit with
  | .error cause =>
    let slot : Slot := ⟨entry, cell, none, some (.error .formula)⟩
    .ok ({ w with slots := w.slots.put key slot }.note (.unreadable key text cause))
  | .ok f =>
    let w := { w with slots := w.slots.put key ⟨entry, cell, some f, none⟩ }
    let w := if settings.outlines then w.note (.outline key f.dump) else w
    (f.cells.map fun a => upper a.text).foldlM (refer bounds key) w

def enter (settings : Settings) (bounds : Bounds) (w : Wiring) (entry : String × Cell) :
    Except Fault Wiring :=
  let key := upper entry.1
  let w := { w with graph := w.graph.ensure key }
  if w.slots.contains key then .ok (w.note (.repeatedKey entry.1 key))
  else
    match entry.2.formula? with
    | none => .ok { w with slots := w.slots.put key ⟨entry.1, entry.2, none, none⟩ }
    | some text => enterFormula settings bounds w key entry.1 entry.2 text

def ofCells (settings : Settings) (bounds : Bounds) (cells : Roster Cell) :
    Except Fault Wiring :=
  cells.entries.foldlM (enter settings bounds) empty

end Wiring

end Worksheet
