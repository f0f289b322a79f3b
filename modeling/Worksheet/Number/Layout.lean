-- How significant digits become the text of a number: with a point in its place, or with one
-- digit before the point and a power of ten after an `e`.

namespace Worksheet.Number

/-- The choices that a text of a number follows. -/
structure Style where
  /-- Powers of ten from `low` on, and below `high`, are written out in full. -/
  low : Int
  high : Int
  /-- A whole number written out in full ends in a point and a zero. -/
  point : Bool

/-- Significant digits without the zeros at the end, save for a first zero. -/
def significant : List Char → List Char
  | [] => []
  | c :: r => c :: (r.reverse.dropWhile (· == '0')).reverse

/-- Digits with a point after the first `whole` of them. -/
def withPoint (style : Style) (whole : Nat) (digits : List Char) : List Char :=
  let front := digits.take whole ++ List.replicate (whole - digits.length) '0'
  match digits.drop whole with
  | [] => if style.point then front ++ ['.', '0'] else front
  | fraction => front ++ '.' :: fraction

/-- A power of ten after an `e`: its sign, and two digits or more. -/
def powerText (k : Int) : List Char :=
  let digits := Nat.toDigits 10 k.natAbs
  'e' :: (if k < 0 then '-' else '+') :: List.replicate (2 - digits.length) '0' ++ digits

/-- The text of `d.ddd * 10 ^ k`, for the significant digits `dddd`. -/
def layout (style : Style) (negative : Bool) (digits : List Char) (k : Int) : String :=
  let digits := significant digits
  let body :=
    if style.low ≤ k ∧ k < style.high then
      if 0 ≤ k then withPoint style (k.toNat + 1) digits
      else ['0', '.'] ++ List.replicate (-k - 1).toNat '0' ++ digits
    else
      match digits with
      | [d] => d :: powerText k
      | digits => digits.take 1 ++ '.' :: digits.drop 1 ++ powerText k
  .ofList (if negative then '-' :: body else body)

example : powerText (-7) = ['e', '-', '0', '7'] ∧ powerText 300 = ['e', '+', '3', '0', '0'] := by
  decide +kernel
example : withPoint ⟨-4, 16, true⟩ 3 ['1'] = ['1', '0', '0', '.', '0'] := by decide +kernel

end Worksheet.Number
