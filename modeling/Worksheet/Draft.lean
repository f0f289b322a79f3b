-- A table as it was sent, not yet checked. Checking is lenient where there is one thing that can be
-- meant, and finds all problems, not only the first.
import Worksheet.Number.Shortest
import Worksheet.Number.Whole
import Worksheet.Problem
import Worksheet.Table

namespace Worksheet

/-! ## The number of rows -/

/-- Doubles from here on do not stand for a number of rows. -/
def rowsEnd : Nat := 0x8000000000000000

/-- The whole number that a double stands for. -/
def wholeOfFloat (x : Float) : Except ProblemKind Int :=
  if x.isNaN || x.isInf then .error .notFinite
  else
    match (Number.parts x).whole? with
    | none => .error .fraction
    | some n => if rowsEnd ≤ n.natAbs then .error .tooLongWholeNumber else .ok n

def wholeOf : Json → Except ProblemKind Int
  | .bool b => .ok (if b then 1 else 0)
  | .int n => .ok n
  | .float x => wholeOfFloat x
  | .text s =>
    match Number.readWhole s with
    | .ok n => .ok n
    | .error .malformed => .error .unreadableWholeNumber
    | .error .tooLong => .error .tooLongWholeNumber
  | _ => .error .notAWholeNumber

/-- A number of rows; zero where none was sent. -/
def checkRows : Option Json → Checked Nat
  | none => .ok 0
  | some j =>
    match wholeOf j with
    | .error kind => .problem ["rows"] kind
    | .ok n => if n < 0 then .problem ["rows"] .belowZero else .ok n.toNat

/-! ## Cells -/

/-- The text of a field of a cell. Numbers and truth values that were sent as such are written
out. -/
def fieldText? : Json → Option (Option String)
  | .null => some none
  | .bool b => some (some (if b then "TRUE" else "FALSE"))
  | .int n => some (some (toString n))
  | .float x => some (some (Number.shortest x))
  | .text s => some (some s)
  | _ => none

/-- A field of a cell; none where none was sent. -/
def checkField (path : List String) (fields : List (String × Json)) (name : String) :
    Checked (Option String) :=
  match Entries.get? fields name with
  | none => .ok none
  | some j =>
    match fieldText? j with
    | some text => .ok text
    | none => .problem (path ++ [name]) .notAText

/-- A cell. Fields that cells do not have are dropped. -/
def Cell.check (path : List String) (j : Json) : Checked Cell :=
  match j with
  | .object fields =>
    .both (fun value rest => ⟨value, rest.1, rest.2⟩) (checkField path fields "value")
      (.both Prod.mk (checkField path fields "formula") (checkField path fields "error"))
  | _ => .problem path .notARecord

/-! ## Columns -/

/-- A column. Fields besides the title are kept. -/
def Column.check (path : List String) (j : Json) : Checked Column :=
  match j with
  | .object fields =>
    let extras := fields.filter (·.1 ≠ "title")
    match Entries.get? fields "title" with
    | none => .ok ⟨"", extras⟩
    | some (.text title) => .ok ⟨title, extras⟩
    | some _ => .problem (path ++ ["title"]) .notAText
  | _ => .problem path .notARecord

/-! ## Tables -/

/-- An object whose values are all of one kind. -/
def checkObject {α : Type} (name : String) (check : List String → Json → Checked α) (j : Json) :
    Checked (Roster α) :=
  match j with
  | .object fields =>
    (Checked.entries (fun key => check [name, key]) fields).map Roster.ofEntries
  | _ => .problem [name] .notAnObject

/-- A table as it was sent. -/
structure Draft where
  rows : Option Json
  columns : Option Json
  data : Option Json

namespace Draft

def ofFields (fields : List (String × Json)) : Draft :=
  ⟨Entries.get? fields "rows", Entries.get? fields "columns", Entries.get? fields "data"⟩

/-- The columns of a draft; none where none were sent. -/
def checkColumns : Option Json → Checked (Roster Column)
  | none => .ok Roster.empty
  | some j => checkObject "columns" Column.check j

/-- The cells of a draft. They have to be sent. -/
def checkData : Option Json → Checked (Roster Cell)
  | none => .problem ["data"] .missing
  | some j => checkObject "data" Cell.check j

def check (d : Draft) : Checked Table :=
  .both (fun rows rest => ⟨rows, rest.1, rest.2⟩) (checkRows d.rows)
    (.both Prod.mk (checkColumns d.columns) (checkData d.data))

end Draft

end Worksheet
