-- Tables: how many rows there are, what the columns are, and what stands in the cells.
import Worksheet.CellKey
import Worksheet.Json.Basic

namespace Worksheet

/-- A cell. What is typed in is the value or the formula; of a formula, value and error are what
it comes to. -/
structure Cell where
  value : Option String
  formula : Option String
  error : Option String
  deriving DecidableEq, Repr

/-- The formula of a cell. An empty one is none. -/
def Cell.formula? (c : Cell) : Option String := c.formula.filter (· ≠ "")

/-- A column: its title, and fields that are passed on as they are. -/
structure Column where
  title : String
  extras : List (String × Json)

/-- A table. Cells stand under the keys that they were sent with. -/
structure Table where
  rows : Nat
  columns : Roster Column
  cells : Roster Cell

def Table.bounds (t : Table) : Bounds := .ofColumns t.columns.keys t.rows

def Table.formulaCount (t : Table) : Nat := t.cells.entries.countP (·.2.formula?.isSome)

end Worksheet
