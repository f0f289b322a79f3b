-- What there is to say about a table while it is wired and evaluated. A note is a cause; its level,
-- its channel and its words are worked out from it.
import Worksheet.Error

namespace Worksheet

open Worksheet.Text (quoted)

/-- How much a note matters. -/
inductive Level
  | debug
  | info
  | warning
  deriving DecidableEq, Repr

/-- Which activity a note comes from. -/
inductive Channel
  | wiring
  | evaluation
  deriving DecidableEq, Repr

inductive Note
  /-- An entry has a key that an earlier one has. -/
  | repeatedKey (entry key : String)
  | unreadable (key formula : String) (cause : ParseError)
  | outline (key dump : String)
  | closesLoop (key reference : String) (path : List String)
  /-- A reference names no cell of the grid. -/
  | offGrid (key reference : String)
  | failed (key formula : String) (code : ErrorCode)
  /-- A table was evaluated. -/
  | summary (cells formulas errors : Nat)
  deriving DecidableEq, Repr

namespace Note

def level : Note → Level
  | repeatedKey _ _ => .warning
  | unreadable _ _ _ | outline _ _ | failed _ _ _ => .debug
  | closesLoop _ _ _ | offGrid _ _ | summary _ _ _ => .info

def channel : Note → Channel
  | failed _ _ _ | summary _ _ _ => .evaluation
  | _ => .wiring

def text : Note → String
  | repeatedKey entry key => s!"Cell {entry} repeats key {key}; keeping the first"
  | unreadable key formula cause =>
    s!"Cell {key}: cannot parse " ++ quoted formula ++ " (" ++ cause.message ++ ")"
  | outline key dump => s!"Syntax tree for {key}:\n{dump}"
  | closesLoop key reference path =>
    s!"Cell {key}: reference to {reference} would create a cycle (" ++
      " -> ".intercalate (path ++ [key]) ++ ")"
  | offGrid key reference => s!"Cell {key}: reference {reference} is outside the grid"
  | failed key formula code => s!"Cell {key}: {formula} evaluates to " ++ code.text
  | summary cells formulas errors =>
    s!"Evaluated {cells} cells ({formulas} formulas, {errors} errors)"

end Note

end Worksheet
