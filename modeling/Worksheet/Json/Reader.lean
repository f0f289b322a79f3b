-- Reads a text as a JSON value. NaN and the two infinities are read, too, and of two fields with
-- one name the later value counts, in the place of the first. An escape for half of a surrogate
-- pair, which some readers let pass, is malformed here: no text of characters holds it.
import Worksheet.Json.Basic
import Worksheet.Number.Numeral

namespace Worksheet.Json

open Worksheet.Number (Decimal digitOf ofDigits)

/-! ## Readers -/

/-- Why a text is not read. -/
inductive ReadError
  | malformed
  /-- Arrays and objects stand in each other past what is ever read. -/
  | tooDeep
  deriving DecidableEq, Repr

/-- Reads something off the front of a text, and gives what is left. -/
abbrev Reader (α : Type) := List Char → Except ReadError (α × List Char)

def isGap (c : Char) : Bool := c == ' ' || c == '\t' || c == '\n' || c == '\r'

def skipGap (cs : List Char) : List Char := cs.dropWhile isGap

/-! ## Texts -/

/-- The value of a digit to base sixteen. -/
def hexValue? (c : Char) : Option Nat :=
  if c.isDigit then some (digitOf c)
  else if 'a' ≤ c ∧ c ≤ 'f' then some (c.toNat - 'a'.toNat + 10)
  else if 'A' ≤ c ∧ c ≤ 'F' then some (c.toNat - 'A'.toNat + 10)
  else none

/-- The number of four digits to base sixteen at the front. -/
def unit? : List Char → Option (Nat × List Char)
  | a :: b :: c :: d :: rest =>
    match hexValue? a, hexValue? b, hexValue? c, hexValue? d with
    | some a, some b, some c, some d => some (((a * 16 + b) * 16 + c) * 16 + d, rest)
    | _, _, _, _ => none
  | _ => none

/-- The character that one unit, or two, stand for. Half a pair stands for none, so a text with it
is refused. -/
def unitChar? (cs : List Char) : Option (Char × List Char) :=
  match unit? cs with
  | none => none
  | some (high, rest) =>
    if high < 0xD800 ∨ 0xDFFF < high then some (Char.ofNat high, rest)
    else if 0xDBFF < high then none
    else
      match rest with
      | '\\' :: 'u' :: rest =>
        match unit? rest with
        | some (low, rest) =>
          if 0xDC00 ≤ low ∧ low ≤ 0xDFFF then
            some (Char.ofNat (0x10000 + (high - 0xD800) * 0x400 + (low - 0xDC00)), rest)
          else none
        | none => none
      | _ => none

def escaped? : List Char → Option (Char × List Char)
  | '"' :: rest => some ('"', rest)
  | '\\' :: rest => some ('\\', rest)
  | '/' :: rest => some ('/', rest)
  | 'b' :: rest => some ('\x08', rest)
  | 'f' :: rest => some ('\x0c', rest)
  | 'n' :: rest => some ('\n', rest)
  | 'r' :: rest => some ('\r', rest)
  | 't' :: rest => some ('\t', rest)
  | 'u' :: rest => unitChar? rest
  | _ => none

/-- The characters of a text up to the quote that ends it. Each takes a character at least, so the
budget, as long as the text is, does not run out first. -/
def textChars : List Char → Reader (List Char)
  | _, [] => .error .malformed
  | [], _ => .error .malformed
  | _ :: budget, c :: rest =>
    if c = '"' then .ok ([], rest)
    else if c = '\\' then
      match escaped? rest with
      | none => .error .malformed
      | some (c, rest) => do
        let (cs, rest) ← textChars budget rest
        .ok (c :: cs, rest)
    else if c < ' ' then .error .malformed
    else do
      let (cs, rest) ← textChars budget rest
      .ok (c :: cs, rest)

def readText : Reader String := fun cs => do
  let (chars, rest) ← textChars cs cs
  .ok (.ofList chars, rest)

/-! ## Numbers -/

/-- The most digits that a whole number may have. -/
def maxDigits : Nat := 4300

/-- The fraction at the front: its digits after a point, or none. -/
def fraction : List Char → List Char × List Char
  | '.' :: rest =>
    let digits := rest.takeWhile Char.isDigit
    if digits = [] then ([], '.' :: rest) else (digits, rest.dropWhile Char.isDigit)
  | cs => ([], cs)

/-- The power of ten at the front, if there is one. -/
def power? : List Char → Option (Int × List Char)
  | c :: rest =>
    if c = 'e' ∨ c = 'E' then
      let (negative, rest) := Number.splitSign rest
      let digits := rest.takeWhile Char.isDigit
      if digits = [] then none
      else
        let n : Int := ofDigits (digits.map digitOf)
        some (if negative then -n else n, rest.dropWhile Char.isDigit)
    else none
  | [] => none

/-- A number without its sign: a whole one, or a double where it has a fraction or a power. -/
def unsignedNumber (negative : Bool) : Reader Json := fun cs =>
  let whole := if cs.head? = some '0' then ['0'] else cs.takeWhile Char.isDigit
  let rest := cs.drop whole.length
  let (places, rest) := fraction rest
  let digits := (whole ++ places).map digitOf
  if whole = [] then .error .malformed
  else
    match power? rest with
    | some (k, rest) =>
      .ok (.float (Decimal.toFloat negative ⟨digits, k - places.length⟩), rest)
    | none =>
      if places ≠ [] then
        .ok (.float (Decimal.toFloat negative ⟨digits, -places.length⟩), rest)
      else if maxDigits < whole.length then .error .malformed
      else
        let n : Int := ofDigits digits
        .ok (.int (if negative then -n else n), rest)

/-! ## Values -/

/-- A value that is neither a text, nor an array, nor an object. -/
def scalar : Reader Json
  | 'n' :: 'u' :: 'l' :: 'l' :: rest => .ok (.null, rest)
  | 't' :: 'r' :: 'u' :: 'e' :: rest => .ok (.bool true, rest)
  | 'f' :: 'a' :: 'l' :: 's' :: 'e' :: rest => .ok (.bool false, rest)
  | 'N' :: 'a' :: 'N' :: rest => .ok (.float Number.notANumber, rest)
  | 'I' :: 'n' :: 'f' :: 'i' :: 'n' :: 'i' :: 't' :: 'y' :: rest =>
    .ok (.float (Number.infinity false), rest)
  | '-' :: 'I' :: 'n' :: 'f' :: 'i' :: 'n' :: 'i' :: 't' :: 'y' :: rest =>
    .ok (.float (Number.infinity true), rest)
  | '-' :: rest => unsignedNumber true rest
  | cs => unsignedNumber false cs

/-- The items of an array up to its end, with commas between them. -/
def items (value : Reader Json) : List Char → Reader (List Json)
  | [], _ => .error .malformed
  | _ :: budget, cs => do
    let (item, rest) ← value cs
    match skipGap rest with
    | ',' :: rest => do
      let (more, rest) ← items value budget (skipGap rest)
      .ok (item :: more, rest)
    | ']' :: rest => .ok ([item], rest)
    | _ => .error .malformed

/-- A field: its name, a colon and its value. -/
def field (value : Reader Json) : Reader (String × Json)
  | '"' :: rest => do
    let (name, rest) ← readText rest
    match skipGap rest with
    | ':' :: rest => do
      let (j, rest) ← value (skipGap rest)
      .ok ((name, j), rest)
    | _ => .error .malformed
  | _ => .error .malformed

/-- The fields of an object up to its end, with commas between them. -/
def members (value : Reader Json) : List Char → Reader (List (String × Json))
  | [], _ => .error .malformed
  | _ :: budget, cs => do
    let (member, rest) ← field value cs
    match skipGap rest with
    | ',' :: rest => do
      let (more, rest) ← members value budget (skipGap rest)
      .ok (member :: more, rest)
    | '}' :: rest => .ok ([member], rest)
    | _ => .error .malformed

def readArray (value : Reader Json) : Reader Json := fun cs =>
  match skipGap cs with
  | ']' :: rest => .ok (.array [], rest)
  | cs => do
    let (js, rest) ← items value cs cs
    .ok (.array js, rest)

def readObject (value : Reader Json) : Reader Json := fun cs =>
  match skipGap cs with
  | '}' :: rest => .ok (.object [], rest)
  | cs => do
    let (fields, rest) ← members value cs cs
    .ok (.ofFields fields, rest)

/-- A value, with room for so many arrays and objects within each other. -/
def readValue (room : Nat) : Reader Json
  | '"' :: rest => do
    let (s, rest) ← readText rest
    .ok (.text s, rest)
  | '[' :: rest =>
    match room with
    | 0 => .error .tooDeep
    | room + 1 => readArray (readValue room) rest
  | '{' :: rest =>
    match room with
    | 0 => .error .tooDeep
    | room + 1 => readObject (readValue room) rest
  | cs => scalar cs

/-! ## Texts of one value -/

/-- How deep arrays and objects may stand in each other where nothing else is known of the stack of
the reader: no count of calls is kept here, as it is for formulas. -/
def usualDepth : Nat := 900

/-- The value that a text is, gaps around it aside. -/
def read (cs : List Char) (depth : Nat := usualDepth) : Except ReadError Json := do
  let (j, rest) ← readValue depth (skipGap cs)
  if skipGap rest = [] then .ok j else .error .malformed

end Worksheet.Json
