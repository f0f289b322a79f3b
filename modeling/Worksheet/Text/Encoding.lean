-- Bytes as text. The encoding is told by a mark at the start, or by where zero bytes stand in the
-- first four: a text of JSON starts with an ASCII character.

namespace Worksheet.Text

/-- Which of the bytes of a unit comes first. -/
inductive ByteOrder
  | big
  | little
  deriving DecidableEq, Repr

/-- How characters are written as bytes. -/
inductive Encoding
  | utf8
  | utf16 (order : ByteOrder)
  | utf32 (order : ByteOrder)
  deriving DecidableEq, Repr

/-- The encoding that the zero bytes at the start tell. -/
def Encoding.ofZeros : List UInt8 → Encoding
  | a :: b :: c :: d :: _ =>
    if a = 0 then (if b = 0 then .utf32 .big else .utf16 .big)
    else if b = 0 then (if c = 0 ∧ d = 0 then .utf32 .little else .utf16 .little)
    else .utf8
  | [a, b] => if a = 0 then .utf16 .big else if b = 0 then .utf16 .little else .utf8
  | _ => .utf8

/-- The encoding of some bytes, and the bytes without a mark for it. -/
def Encoding.detect : List UInt8 → Encoding × List UInt8
  | 0x00 :: 0x00 :: 0xFE :: 0xFF :: rest => (.utf32 .big, rest)
  | 0xFF :: 0xFE :: 0x00 :: 0x00 :: rest => (.utf32 .little, rest)
  | 0xFE :: 0xFF :: rest => (.utf16 .big, rest)
  | 0xFF :: 0xFE :: rest => (.utf16 .little, rest)
  | 0xEF :: 0xBB :: 0xBF :: rest => (.utf8, rest)
  | bytes => (.ofZeros bytes, bytes)

def ByteOrder.pair (o : ByteOrder) (a b : UInt8) : Nat :=
  match o with
  | big => a.toNat * 0x100 + b.toNat
  | little => b.toNat * 0x100 + a.toNat

def units16? (o : ByteOrder) : List UInt8 → Option (List Nat)
  | [] => some []
  | [_] => none
  | a :: b :: rest => (units16? o rest).map (o.pair a b :: ·)

def units32? (o : ByteOrder) : List UInt8 → Option (List Nat)
  | [] => some []
  | a :: b :: c :: d :: rest =>
    let unit :=
      match o with
      | .big => o.pair a b * 0x10000 + o.pair c d
      | .little => o.pair c d * 0x10000 + o.pair a b
    (units32? o rest).map (unit :: ·)
  | _ => none

def char? (n : Nat) : Option Char := if n.isValidChar then some (Char.ofNat n) else none

/-- Numbers of two bytes as characters. A character past the first 65536 takes two of them, and
half a pair is none. -/
def pairUp? : List Nat → Option (List Char)
  | [] => some []
  | n :: rest =>
    if 0xD800 ≤ n ∧ n ≤ 0xDBFF then
      match rest with
      | low :: rest =>
        if 0xDC00 ≤ low ∧ low ≤ 0xDFFF then do
          let c ← char? (0x10000 + (n - 0xD800) * 0x400 + (low - 0xDC00))
          let cs ← pairUp? rest
          some (c :: cs)
        else none
      | [] => none
    else do
      let c ← char? n
      let cs ← pairUp? rest
      some (c :: cs)

def Encoding.decode? : Encoding → List UInt8 → Option (List Char)
  | utf8, bytes => (String.fromUTF8? ⟨bytes.toArray⟩).map String.toList
  | utf16 o, bytes => (units16? o bytes).bind pairUp?
  | utf32 o, bytes => (units32? o bytes).bind (·.mapM char?)

def decode? (bytes : List UInt8) : Option (List Char) :=
  let (encoding, rest) := Encoding.detect bytes
  encoding.decode? rest

example : Encoding.detect [0x7B, 0, 0x7D, 0] = (.utf16 .little, [0x7B, 0, 0x7D, 0]) := by decide
example : pairUp? [0xD83D, 0xDE00] = some ['😀'] := by decide +kernel
example : pairUp? [0xD83D] = none := by decide

end Worksheet.Text
