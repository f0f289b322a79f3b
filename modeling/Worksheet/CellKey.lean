-- Cell keys: letters for the column, then digits for the row. A key names a position; two
-- spellings, such as `a1` and `A01`, can name one position.
import Worksheet.Error
import Worksheet.Text.Blank
import Worksheet.Text.Upper

namespace Worksheet

open Worksheet.Text (strip upper)

/-- The letters and the digits of a key. A line feed may end it. -/
def splitKey? (cs : List Char) : Option (List Char × List Char) :=
  let letters := cs.takeWhile Char.isAlpha
  let rest := cs.dropWhile Char.isAlpha
  let digits := rest.takeWhile Char.isDigit
  let tail := rest.dropWhile Char.isDigit
  if letters ≠ [] ∧ digits ≠ [] ∧ (tail = [] ∨ tail = ['\n']) then some (letters, digits) else none

def isCellKey (s : String) : Bool := (splitKey? s.toList).isSome

/-- A place on the grid. -/
structure Position where
  column : String
  row : Nat
  deriving DecidableEq, Repr

/-- The position that a key names, blanks around it aside. -/
def Position.ofKey (key : String) : Except Fault Position :=
  match splitKey? (strip key).toList with
  | none => .error (.formula (.badKey key))
  | some (letters, digits) =>
    if Fault.maxRowDigits < digits.length then .error (.rowDigits digits.length)
    else .ok ⟨upper (.ofList letters), Nat.ofDigitChars 10 digits 0⟩

/-- The columns and the number of rows of a grid. -/
structure Bounds where
  columns : List String
  rows : Int

namespace Bounds

def ofColumns (names : List String) (rows : Int) : Bounds := ⟨names.map upper, rows⟩

def holds (b : Bounds) (p : Position) : Bool :=
  b.columns.contains p.column && 1 ≤ p.row && p.row ≤ b.rows

/-- Whether a key names a position on the grid. What names no position is off the grid. -/
def contains (b : Bounds) (key : String) : Except Fault Bool :=
  match Position.ofKey key with
  | .ok p => .ok (b.holds p)
  | .error (.formula _) => .ok false
  | .error fault => .error fault

def columnList (b : Bounds) : List String :=
  (b.columns.mergeSort (fun x y => decide (x ≤ y))).eraseDups

end Bounds

end Worksheet
