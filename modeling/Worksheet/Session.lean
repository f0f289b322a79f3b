-- A table that is edited step by step. Nothing is checked before the table is evaluated; feeding
-- a table puts what its formulas come to in place of its cells.
import Worksheet.Draft
import Worksheet.Recalculation

namespace Worksheet

/-- Why a draft has no outcome. -/
inductive Refusal
  | invalid (problems : List Problem)
  | fault (f : Fault)

/-- Checks a draft and evaluates it. -/
def Draft.evaluate (settings : Settings) (d : Draft) : Except Refusal Recalculated :=
  match d.check with
  | .error problems => .error (.invalid problems)
  | .ok table => (table.recalculate settings).mapError .fault

/-- A table under way. -/
structure Session where
  rows : Json
  columns : List String
  cells : Roster Json

namespace Session

def start (rows : Json) (columns : List String) : Session := ⟨rows, columns, Roster.empty⟩

inductive Edit
  | set (key : String) (cell : Json)
  | delete (key : String)
  | rows (n : Json)
  | columns (names : List String)

def apply (s : Session) : Edit → Session
  | .set key cell => { s with cells := s.cells.put key cell }
  | .delete key => { s with cells := s.cells.erase key }
  | .rows n => { s with rows := n }
  | .columns names => { s with columns := names }

/-- The draft that a table under way is. Its columns have no fields. -/
def draft (s : Session) : Draft :=
  { rows := some s.rows
    columns := some (.ofFields (s.columns.map fun name => (name, .object [])))
    data := some (.object s.cells.entries) }

/-- What the table comes to. -/
def evaluate (settings : Settings) (s : Session) : Except Refusal Recalculated :=
  s.draft.evaluate settings

/-- A text or nothing, as it is sent. -/
def ofText? : Option String → Json
  | none => .null
  | some s => .text s

/-- A cell with all its fields. -/
def fullCell (c : Cell) : Json :=
  .object [("value", ofText? c.value), ("formula", ofText? c.formula), ("error", ofText? c.error)]

def feed (s : Session) (r : Recalculated) : Session :=
  { s with cells := .ofEntries (r.table.cells.entries.map fun e => (e.1, fullCell e.2)) }

end Session

end Worksheet
