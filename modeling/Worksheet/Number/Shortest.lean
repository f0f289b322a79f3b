-- The shortest text that reads back as the same double. Messages show numbers so, and so does a
-- cell whose value was sent as a number.
import Worksheet.Number.Double
import Worksheet.Number.Layout

namespace Worksheet.Number

/-- The decimals that are read as one double: those from `low / den` to `high / den`, with the
ends where `closed`. `mid / den` is the double. -/
structure Interval where
  low : Nat
  mid : Nat
  high : Nat
  den : Nat
  closed : Bool

/-- Halfway to either neighbour; the neighbour below a power of two is half as far. A half goes to
the even significand, so an even one has the ends too. -/
def Parts.interval (p : Parts) : Interval :=
  let q := p.exponent - 2
  let unit := Nat.pow 2 q.toNat
  let below := if p.significand = leadingBit ∧ -1074 < p.exponent then 1 else 2
  { low := (4 * p.significand - below) * unit
    mid := 4 * p.significand * unit
    high := (4 * p.significand + 2) * unit
    den := Nat.pow 2 (-q).toNat
    closed := p.significand % 2 == 0 }

def Interval.holds (i : Interval) (c : Nat) (j : Int) : Bool :=
  let x := c * Nat.pow 10 j.toNat * i.den
  let scale := Nat.pow 10 (-j).toNat
  if i.closed then i.low * scale ≤ x && x ≤ i.high * scale
  else i.low * scale < x && x < i.high * scale

/-- The multiple of `10 ^ j` nearest to the double, if it or its neighbour is in the interval. -/
def Interval.hit? (i : Interval) (j : Int) : Option Nat :=
  let near := inTens i.mid i.den j
  let above := i.mid * Nat.pow 10 (-j).toNat < near * (i.den * Nat.pow 10 j.toNat)
  let far := if above then near - 1 else near + 1
  if i.holds near j then some near
  else if i.holds far j then some far
  else none

/-- The first grid that has a hit, from `10 ^ j` down; the finest grid is always taken. -/
def Interval.search (i : Interval) (j : Int) : Nat → Nat × Int
  | 0 => (inTens i.mid i.den j, j)
  | steps + 1 =>
    match i.hit? j with
    | some c => (c, j)
    | none => i.search (j - 1) steps

/-- Numbers from 10^-4 on and below 10^16 are written in full, and a whole one ends in a point
and a zero. -/
def shortestStyle : Style := ⟨-4, 16, true⟩

def Parts.shortest (p : Parts) : String :=
  if p.isZero then layout shortestStyle p.negative ['0'] 0
  else
    let (c, j) := p.interval.search (decimalOrder p.num p.den) 16
    let digits := Nat.toDigits 10 c
    layout shortestStyle p.negative digits (j + (digits.length - 1 : Nat))

def shortest (x : Float) : String :=
  if x.isNaN then "nan"
  else if x.isInf then (if (parts x).negative then "-inf" else "inf")
  else (parts x).shortest

example : (Parts.mk false 1 (-1074)).shortest = "5e-324" := by decide +kernel
example : (Parts.mk false (2 ^ 52) (-96)).shortest = "5.684341886080802e-14" := by decide +kernel
example : (Parts.mk true (2 ^ 52) (-52)).shortest = "-1.0" := by decide +kernel

end Worksheet.Number
