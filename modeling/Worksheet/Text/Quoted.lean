-- A text as a message quotes it: on one line, in printable characters, with single quotes
-- unless the text holds single quotes alone.
import Worksheet.Text.Printable

namespace Worksheet.Text

/-- The last `width` digits of a number to base sixteen, in small letters. -/
def hexDigits : Nat → Nat → List Char
  | 0, _ => []
  | width + 1, n => hexDigits width (n / 16) ++ [Nat.digitChar (n % 16)]

/-- A character between the quotes `q`. -/
def escapeChar (q c : Char) : List Char :=
  if c = q ∨ c = '\\' then ['\\', c]
  else if c = '\n' then ['\\', 'n']
  else if c = '\r' then ['\\', 'r']
  else if c = '\t' then ['\\', 't']
  else if isPrintable c then [c]
  else if c.toNat < 0x100 then '\\' :: 'x' :: hexDigits 2 c.toNat
  else if c.toNat < 0x10000 then '\\' :: 'u' :: hexDigits 4 c.toNat
  else '\\' :: 'U' :: hexDigits 8 c.toNat

/-- Double quotes for a text with single quotes and no double ones, else single quotes. -/
def quoteFor (cs : List Char) : Char :=
  if '\'' ∈ cs ∧ '"' ∉ cs then '"' else '\''

def quoted (s : String) : String :=
  let q := quoteFor s.toList
  .ofList (q :: s.toList.flatMap (escapeChar q) ++ [q])

/-- A list of texts, each in quotes, between brackets. -/
def quotedList (ss : List String) : String :=
  "[" ++ ", ".intercalate (ss.map quoted) ++ "]"

example : escapeChar '\'' '\x7f' = ['\\', 'x', '7', 'f'] := by decide +kernel
example : quoteFor ['i', '\'', 's'] = '"' ∧ quoteFor ['"', '\''] = '\'' := by decide

end Worksheet.Text
