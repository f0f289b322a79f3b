-- The text that a cell shows for a number: a whole number below 10^15 in full, and every other
-- number with up to fifteen significant digits.
import Worksheet.Number.Double
import Worksheet.Number.Layout

namespace Worksheet.Number

/-- Cells show numbers from 10^-4 on and below 10^15 in full, with no point after a whole
number. -/
def cellStyle : Style := ⟨-4, 15, false⟩

/-- How many significant digits a cell shows at most. -/
def cellDigits : Nat := 15

/-- The first `places` significant digits of a positive ratio, rounded, and the power of ten of
the first of them. -/
def leadingDigits (places num den : Nat) : Nat × Int :=
  let k := decimalOrder num den
  let d := inTens num den (k - (places - 1 : Nat))
  if d = Nat.pow 10 places then (Nat.pow 10 (places - 1), k + 1) else (d, k)

/-- Whole numbers from here on are not shown in full. -/
def wholeEnd : Nat := 1000000000000000

/-- Whether a cell shows the number as a whole number. -/
def Parts.isPlain (p : Parts) : Bool := p.num % p.den == 0 && p.num / p.den < wholeEnd

/-- The text that a cell shows for a finite double. -/
def Parts.display (p : Parts) : String :=
  if p.isPlain then
    let n := p.num / p.den
    .ofList (if p.negative && n != 0 then '-' :: Nat.toDigits 10 n else Nat.toDigits 10 n)
  else
    let (d, k) := leadingDigits cellDigits p.num p.den
    layout cellStyle p.negative (Nat.toDigits 10 d) k

example : (Parts.mk true 5 (-1)).display = "-2.5" := by decide +kernel
example : (Parts.mk false 1 50).display = "1.12589990684262e+15" := by decide +kernel
example : (Parts.mk false 0 0).display = "0" := by decide +kernel

end Worksheet.Number
