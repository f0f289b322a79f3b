-- The text of a JSON value, in ASCII and with no gaps in it. Doubles are written with the fewest
-- digits that read back.
import Worksheet.Json.Basic
import Worksheet.Number.Shortest
import Worksheet.Text.Quoted

namespace Worksheet.Json

open Worksheet.Text (hexDigits)

/-- A unit of sixteen bits. -/
def printUnit (n : Nat) : List Char := '\\' :: 'u' :: hexDigits 4 n

/-- A character inside a text. One past ASCII is written as one unit or two. -/
def escapeChar (c : Char) : List Char :=
  let n := c.toNat
  if c = '"' then ['\\', '"']
  else if c = '\\' then ['\\', '\\']
  else if 0x20 ≤ n ∧ n < 0x7F then [c]
  else if n < 0x10000 then printUnit n
  else
    printUnit (0xD800 + (n - 0x10000) / 0x400) ++ printUnit (0xDC00 + (n - 0x10000) % 0x400)

def printText (s : String) : String := "\"" ++ .ofList (s.toList.flatMap escapeChar) ++ "\""

/-- A double. Where it is infinite, or is no number, its word is written. -/
def printFloat (x : Float) : String :=
  if x.isNaN then "NaN"
  else if x.isInf then (if x < 0 then "-Infinity" else "Infinity")
  else Number.shortest x

mutual

def print : Json → String
  | null => "null"
  | bool b => if b then "true" else "false"
  | int n => toString n
  | float x => printFloat x
  | text s => printText s
  | array items => "[" ++ ",".intercalate (printItems items) ++ "]"
  | object fields => "\x7b" ++ ",".intercalate (printFields fields) ++ "\x7d"

def printItems : List Json → List String
  | [] => []
  | item :: rest => item.print :: printItems rest

def printFields : List (String × Json) → List String
  | [] => []
  | (name, j) :: rest => (printText name ++ ":" ++ j.print) :: printFields rest

end

end Worksheet.Json
