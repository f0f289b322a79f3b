-- Texts that are read as whole numbers where one was sent in place of a number: with spaces around
-- it, a plus sign, zeros in front, bars between digits, or a fraction of zeros.
import Worksheet.Number.Numeral

namespace Worksheet.Number

open Worksheet.Text (isSpace trimBy)

/-- The characters without a plus sign in front. No minus sign may follow it. -/
def dropPlus? : List Char → Option (List Char)
  | '+' :: '-' :: _ => none
  | '+' :: r => some r
  | cs => some cs

/-- Whether a number can go on with this character after zeros: with a digit, or with the minus
sign of the number itself. -/
def continuesAfterZeros (c : Char) : Bool :=
  c.isDigit || c = '-'

/-- The characters after a zero without more zeros, and without single bars between them. A zero
stays where nothing else does, and before a point. -/
def dropZeros? : List Char → Option (List Char)
  | [] => some ['0']
  | c :: r =>
    if c = '0' then dropZeros? r
    else if c = '_' then (if r.head?.any continuesAfterZeros then dropZeros? r else none)
    else if c = '.' then some ('0' :: c :: r)
    else if continuesAfterZeros c then some (c :: r)
    else none

/-- The characters without zeros in front of a number. They may also stand in front of its minus
sign. -/
def dropLeadingZeros? : List Char → Option (List Char)
  | [] => none
  | c :: r =>
    if c = '0' then dropZeros? r else if continuesAfterZeros c then some (c :: r) else none

/-- The characters without a fraction of zeros. A point alone is no fraction and stays. -/
def dropZeroFraction (cs : List Char) : List Char :=
  let zeros := (cs.dropWhile (· ≠ '.')).drop 1
  if !zeros.isEmpty && zeros.all (· == '0') then cs.takeWhile (· ≠ '.') else cs

/-- The characters without the bars. No bar may stand at the end or next to another. -/
def dropInnerBars? : List Char → Option (List Char)
  | [] => some []
  | ['_'] => none
  | '_' :: '_' :: _ => none
  | c :: r => (dropInnerBars? r).map fun cs => if c = '_' then cs else c :: cs

/-- The characters without the bars, if each of them stands alone and inside. -/
def dropBars (cs : List Char) : List Char :=
  if cs.head? = some '_' then cs else (dropInnerBars? cs).getD cs

/-- Why a text is no whole number. -/
inductive WholeError
  | malformed
  /-- It starts with a number that is longer than any that is read. -/
  | tooLong
  deriving DecidableEq, Repr

/-- The most characters that such a number may have, its minus sign among them. -/
def maxWholeLength : Nat := 4300

/-- The whole number that is written with a minus sign or none, and digits. -/
def plainWhole (cs : List Char) : Except WholeError Int :=
  let negative := cs.head? = some '-'
  let body := if negative then cs.drop 1 else cs
  let ds := body.takeWhile Char.isDigit
  if ds.isEmpty then .error .malformed
  else if maxWholeLength < cs.length - body.length + ds.length then .error .tooLong
  else if ds.length < body.length then .error .malformed
  else
    let n : Int := ofDigits (ds.map digitOf)
    .ok (if negative then -n else n)

def readWhole (s : String) : Except WholeError Int :=
  match (dropPlus? (trimBy isSpace s.toList)).bind dropLeadingZeros? with
  | none => .error .malformed
  | some cs => plainWhole (dropBars (dropZeroFraction cs))

def Parts.whole? (p : Parts) : Option Int :=
  if p.num % p.den = 0 then
    let n : Int := (p.num / p.den : Nat)
    some (if p.negative then -n else n)
  else none

example : (readWhole " +03.0 ").toOption = some 3 := by decide +kernel
example : (readWhole "1_0").toOption = some 10 := by decide +kernel
example : (readWhole "1__0").toOption = none := by decide +kernel
example : (readWhole "-0.0").toOption = some 0 := by decide +kernel
example : (readWhole "-0.").toOption = none := by decide +kernel
example : (readWhole "0-0").toOption = some 0 := by decide +kernel
example : (readWhole "-007").toOption = some (-7) := by decide +kernel

end Worksheet.Number
