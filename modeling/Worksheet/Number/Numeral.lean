-- Texts that are read as numbers: digits of any script, with a point, a power of ten, and bars
-- between digits, or a word for infinity or for no number.
import Worksheet.Number.Double
import Worksheet.Text.Blank
import Worksheet.Text.DecimalDigit

namespace Worksheet.Number

open Worksheet.Text

/-! ## Decimals -/

/-- A decimal: its digits read as one whole number, times `10 ^ exponent`. -/
structure Decimal where
  digits : List Nat
  exponent : Int

def ofDigits (ds : List Nat) : Nat := ds.foldl (fun n d => 10 * n + d) 0

/-- The double nearest to a decimal. One with a first digit past the 310th place is past every
double, and one with none before the 330th place after the point is nearest to zero. -/
def Decimal.toFloat (negative : Bool) (d : Decimal) : Float :=
  let ds := d.digits.dropWhile (· == 0)
  let top := (ds.length : Int) + d.exponent
  if ds.isEmpty || top < -330 then ofSignBits negative 0
  else if 310 < top then infinity negative
  else nearest negative (ofDigits ds * Nat.pow 10 d.exponent.toNat) (Nat.pow 10 (-d.exponent).toNat)

/-! ## Plain characters -/

/-- A character past ASCII as the ASCII one that it stands for: a space for a blank, and a digit
for a digit of another script. -/
def plainChar (c : Char) : Char :=
  if c.toNat < 128 then c
  else if isBlank c then ' '
  else
    match digitValue? c with
    | some d => Nat.digitChar d
    | none => c

/-- The blanks that may stand around a number once its characters are plain. -/
def isMargin (c : Char) : Bool := c == ' ' || (9 ≤ c.toNat && c.toNat ≤ 13)

/-- The characters without the bars between digits; `none` where a bar stands elsewhere. The
first argument tells whether the character before is a digit. -/
def joinDigits? : Bool → List Char → Option (List Char)
  | _, [] => some []
  | afterDigit, c :: r =>
    if c = '_' then
      if afterDigit && r.head?.any Char.isDigit then joinDigits? false r else none
    else (joinDigits? c.isDigit r).map (c :: ·)

/-! ## Grammar -/

def digitOf (c : Char) : Nat := c.toNat - '0'.toNat

/-- The characters after an optional sign, and whether it is a minus. -/
def splitSign : List Char → Bool × List Char
  | '-' :: r => (true, r)
  | '+' :: r => (false, r)
  | cs => (false, cs)

def power? (cs : List Char) : Option Int :=
  let (negative, ds) := splitSign cs
  if ds.isEmpty || !ds.all Char.isDigit then none
  else
    let n : Int := ofDigits (ds.map digitOf)
    some (if negative then -n else n)

def decimal? (cs : List Char) : Option Decimal :=
  let whole := cs.takeWhile Char.isDigit
  let rest := cs.dropWhile Char.isDigit
  let (fraction, rest) : List Char × List Char :=
    match rest with
    | '.' :: r => (r.takeWhile Char.isDigit, r.dropWhile Char.isDigit)
    | _ => ([], rest)
  if whole.isEmpty && fraction.isEmpty then none
  else
    let digits := (whole ++ fraction).map digitOf
    match rest with
    | [] => some ⟨digits, -fraction.length⟩
    | c :: r =>
      if c = 'e' ∨ c = 'E' then (power? r).map fun k => ⟨digits, k - fraction.length⟩ else none

def plainNumeral? (cs : List Char) : Option Float :=
  let (negative, body) := splitSign cs
  let word := String.ofList (body.map Char.toLower)
  if word = "inf" ∨ word = "infinity" then some (infinity negative)
  else if word = "nan" then some notANumber
  else (decimal? body).map (Decimal.toFloat negative)

/-! ## Reading -/

def read? (s : String) : Option Float :=
  (joinDigits? false (trimBy isMargin (s.toList.map plainChar))).bind plainNumeral?

/-- The finite double that a text stands for: cells take no infinity and no word for it. -/
def readFinite? (s : String) : Option Float :=
  (read? s).filter Float.isFinite

theorem isFinite_of_readFinite? {s : String} {x : Float} (h : readFinite? s = some x) :
    x.isFinite = true := by
  simp only [readFinite?, Option.filter_eq_some_iff] at h
  exact h.2

end Worksheet.Number
