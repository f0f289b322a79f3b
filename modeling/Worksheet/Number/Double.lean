-- Doubles as whole numbers times powers of two. `parts` takes a finite double apart exactly, and
-- `nearest` gives the double nearest to a ratio.
import Worksheet.Number.Ratio

namespace Worksheet.Number

/-- The fraction takes fifty-two bits; this is the bit after them, which a significand has though
it is not written. -/
def leadingBit : Nat := 0x10000000000000

/-- The exponent takes eleven bits; this is the number of exponents. -/
def exponentCount : Nat := 0x800

def signBit : Nat := 0x8000000000000000

/-- A finite double: `significand * 2 ^ exponent`, or its negative. -/
structure Parts where
  negative : Bool
  significand : Nat
  exponent : Int
  deriving DecidableEq, Repr

/-- The parts of a finite double, read off its bits. -/
def parts (x : Float) : Parts :=
  let bits := x.toBits.toNat
  let field : Nat := bits / leadingBit % exponentCount
  let fraction : Nat := bits % leadingBit
  { negative := decide (signBit ≤ bits)
    significand := if field = 0 then fraction else leadingBit + fraction
    exponent := if field = 0 then -1074 else (field : Int) - 1075 }

namespace Parts

/-- The size of the number is the ratio of `num` to `den`. -/
def num (p : Parts) : Nat := p.significand * Nat.pow 2 p.exponent.toNat

@[inherit_doc num]
def den (p : Parts) : Nat := Nat.pow 2 (-p.exponent).toNat

def isZero (p : Parts) : Bool := p.significand == 0

end Parts

theorem Parts.den_pos (p : Parts) : 0 < p.den := Nat.pow_pos (by decide)

def infinityBits : Nat := 0x7FF0000000000000

/-- The bits of the double nearest to a ratio; a half goes to the even neighbour, and what is
past the largest double goes to infinity. -/
def nearestBits (num den : Nat) : Nat :=
  if num = 0 then 0
  else
    let q := max (binaryOrder num den - 52) (-1074)
    let m := roundDiv (num * Nat.pow 2 (-q).toNat) (den * Nat.pow 2 q.toNat)
    min ((q + 1074).toNat * leadingBit + m) infinityBits

def ofSignBits (negative : Bool) (bits : Nat) : Float :=
  Float.ofBits (UInt64.ofNat (if negative then signBit + bits else bits))

def nearest (negative : Bool) (num den : Nat) : Float :=
  ofSignBits negative (nearestBits num den)

def infinity (negative : Bool) : Float := ofSignBits negative infinityBits

def notANumber : Float := Float.ofBits 0x7FF8000000000000

theorem nearestBits_le_infinity (num den : Nat) : nearestBits num den ≤ infinityBits := by
  unfold nearestBits
  split
  · decide
  · exact Nat.min_le_right _ _

example : nearestBits 1 1 = 0x3FF0000000000000 := by decide +kernel
example : nearestBits 1 10 = 0x3FB999999999999A := by decide +kernel
example : nearestBits (2 ^ 53 + 1) 1 = nearestBits (2 ^ 53) 1 := by decide +kernel
example : nearestBits (2 ^ 1024) 1 = infinityBits := by decide +kernel
example : parts 2.5 = ⟨false, 5 * 2 ^ 50, -51⟩ := by decide +kernel

end Worksheet.Number
