-- The values of cells: numbers, truth values, texts and error codes. Here is how a text typed into
-- a cell is read, how a value is shown, when it serves as a number, and when two are equal.
import Worksheet.Error
import Worksheet.Number.Display
import Worksheet.Number.Numeral
import Worksheet.Text.Fold
import Worksheet.Text.Upper

namespace Worksheet

open Worksheet.Text (fold strip upper)

/-- The text that a cell shows for a number. Only finite numbers have one. -/
def displayNumber (x : Float) : Except Fault String :=
  if x.isNaN then .error .nanAsWhole
  else if x.isInf then .error .infinityAsWhole
  else .ok (Number.parts x).display

/-- The value of a cell or of a formula. -/
inductive Value
  | number (x : Float)
  | boolean (b : Bool)
  | text (s : String)
  | error (code : ErrorCode)

namespace Value

/-- What blank cells, absent cells and cells with errors are read as. -/
def zero : Value := number 0

/-- A result as a value. A result that is not finite is an error. -/
def ofFloat (x : Float) : Except FormulaError Value :=
  if x.isFinite then .ok (number x) else .error (.notFinite x)

def booleanText (b : Bool) : String := if b then "TRUE" else "FALSE"

def booleanOf? (s : String) : Option Bool :=
  if upper s = "TRUE" then some true
  else if upper s = "FALSE" then some false
  else none

/-- What stands between a quote at the start of a text and one at its end. -/
def unquoted? (s : String) : Option String :=
  match s.toList with
  | '"' :: r => if r.getLast? = some '"' then some (.ofList r.dropLast) else none
  | _ => none

/-- The value of the text typed into a cell; none where it is blank. A number or a truth value may
have blanks around it, and quotes make a text of what would be a number. -/
def ofLiteral? (raw : String) : Option Value :=
  let body := strip raw
  if body = "" then none
  else
    match Number.readFinite? body with
    | some x => some (number x)
    | none =>
      match booleanOf? body with
      | some b => some (boolean b)
      | none => some (text ((unquoted? body).getD raw))

def isError : Value → Bool
  | error _ => true
  | _ => false

/-- The value where a number is due. A truth value is one or zero, and a text may stand for a
number. -/
def toNumber : Value → Except FormulaError Float
  | number x => .ok x
  | boolean b => .ok (if b then 1 else 0)
  | text s =>
    match Number.readFinite? (strip s) with
    | some x => .ok x
    | none => .error (.notNumeric s)
  | error code => .error (.errorOperand code)

/-- The value as cells show it, and as texts are joined. -/
def display : Value → Except Fault String
  | number x => displayNumber x
  | boolean b => .ok (booleanText b)
  | text s => .ok s
  | error code => .ok code.text

/-- Whether two values are of one kind and equal; the case of letters in texts does not count. -/
def equals : Value → Value → Bool
  | number x, number y => x == y
  | boolean a, boolean b => a == b
  | text s, text t => fold s == fold t
  | error c, error d => c == d
  | _, _ => false

theorem displayNumber_of_isFinite {x : Float} (nan : x.isNaN = false) (inf : x.isInf = false) :
    displayNumber x = .ok (Number.parts x).display := by
  unfold displayNumber
  rw [nan, inf]
  rfl

example : ofLiteral? " \t" = none := by decide +kernel

end Value

end Worksheet
