-- The tokens of a formula: numbers, texts in quotes, names, and symbols. At each place `scan` takes
-- the one lexeme that starts there; blanks between tokens are dropped.
import Worksheet.Error
import Worksheet.Text.Blank
import Worksheet.Text.DecimalDigit

namespace Worksheet.Formula

open Worksheet.Text (isBlank isDigit)

inductive Symbol
  | equal
  | unequal
  | greater
  | less
  | atLeast
  | atMost
  | join
  | plus
  | minus
  | times
  | divide
  | power
  | percent
  | opening
  | closing
  deriving DecidableEq, Repr

def Symbol.text : Symbol → String
  | equal => "="
  | unequal => "<>"
  | greater => ">"
  | less => "<"
  | atLeast => ">="
  | atMost => "<="
  | join => "&"
  | plus => "+"
  | minus => "-"
  | times => "*"
  | divide => "/"
  | power => "^"
  | percent => "%"
  | opening => "("
  | closing => ")"

inductive TokenKind
  | number
  | text
  | name
  | symbol (s : Symbol)
  deriving DecidableEq, Repr

/-- A piece of a formula, and where it starts. -/
structure Token where
  kind : TokenKind
  text : String
  start : Nat
  deriving DecidableEq, Repr

/-- The position after the token. -/
def Token.stop (t : Token) : Nat := t.start + t.text.length

/-- How many characters at the front `p` accepts. -/
def run (p : Char → Bool) (cs : List Char) : Nat := (cs.takeWhile p).length

/-- How long a power of ten at the front is: an `e`, a sign or none, and digits. -/
def exponentLength : List Char → Nat
  | [] => 0
  | c :: r =>
    if c = 'e' ∨ c = 'E' then
      let sign := if r.head? = some '+' ∨ r.head? = some '-' then 1 else 0
      let digits := run isDigit (r.drop sign)
      if digits = 0 then 0 else 1 + sign + digits
    else 0

/-- How long a number at the front is: digits with a point after or among them, or a point with
digits after it, and then a power of ten or none. -/
def numberLength (cs : List Char) : Nat :=
  let whole := run isDigit cs
  match cs.drop whole with
  | '.' :: r =>
    let fraction := run isDigit r
    if whole = 0 ∧ fraction = 0 then 0
    else whole + 1 + fraction + exponentLength (r.drop fraction)
  | rest => if whole = 0 then 0 else whole + exponentLength rest

/-- Where a text that is open ends, counted from its first inner character. A quote written twice
is inside; where no single quote follows, the text ends in the last pair, at its first quote. -/
def closingQuote (lastPair : Option Nat) (count : Nat) : List Char → Option Nat
  | [] => lastPair
  | [c] => if c = '"' then some (count + 1) else lastPair
  | c :: d :: r =>
    if c = '"' then
      if d = '"' then closingQuote (some (count + 1)) (count + 2) r else some (count + 1)
    else closingQuote lastPair (count + 1) (d :: r)

def textLength : List Char → Nat
  | '"' :: r => ((closingQuote none 0 r).map (1 + ·)).getD 0
  | _ => 0

def isNameStart (c : Char) : Bool := c.isAlpha || c == '_'

def isNameChar (c : Char) : Bool := isNameStart c || c.isDigit

def nameLength : List Char → Nat
  | c :: r => if isNameStart c then 1 + run isNameChar r else 0
  | [] => 0

/-- The symbol at the front; of two that start alike, the longer one. -/
def symbol? : List Char → Option Symbol
  | '<' :: '>' :: _ => some .unequal
  | '>' :: '=' :: _ => some .atLeast
  | '<' :: '=' :: _ => some .atMost
  | '=' :: _ => some .equal
  | '<' :: _ => some .less
  | '>' :: _ => some .greater
  | '&' :: _ => some .join
  | '+' :: _ => some .plus
  | '-' :: _ => some .minus
  | '*' :: _ => some .times
  | '/' :: _ => some .divide
  | '^' :: _ => some .power
  | '%' :: _ => some .percent
  | '(' :: _ => some .opening
  | ')' :: _ => some .closing
  | _ => none

/-- What the front of a text is, and how long: blanks, or a token of some kind. -/
structure Lexeme where
  kind? : Option TokenKind
  length : Nat

def lexeme? (cs : List Char) : Option Lexeme :=
  if 0 < run isBlank cs then some ⟨none, run isBlank cs⟩
  else if 0 < numberLength cs then some ⟨some .number, numberLength cs⟩
  else if 0 < textLength cs then some ⟨some .text, textLength cs⟩
  else if 0 < nameLength cs then some ⟨some .name, nameLength cs⟩
  else (symbol? cs).map fun s => ⟨some (.symbol s), s.text.length⟩

/-- The tokens from position `pos` on, once `skip` more characters are passed by. -/
def scanFrom (pos skip : Nat) : List Char → Except ParseError (List Token)
  | [] => .ok []
  | c :: r =>
    match skip with
    | skip + 1 => scanFrom (pos + 1) skip r
    | 0 =>
      match lexeme? (c :: r) with
      | none => .error (.strayChar c pos)
      | some ⟨none, length⟩ => scanFrom (pos + 1) (length - 1) r
      | some ⟨some kind, length⟩ => do
        let tokens ← scanFrom (pos + 1) (length - 1) r
        .ok (⟨kind, .ofList ((c :: r).take length), pos⟩ :: tokens)

def scan (s : String) : Except ParseError (List Token) := scanFrom 0 0 s.toList

example : closingQuote none 0 ['a', '"', '"', 'b'] = some 2 := by decide
example : numberLength ['1', '.', 'e', '5', 'x'] = 4 ∧ numberLength ['1', 'e', '+'] = 1 := by
  decide +kernel

end Worksheet.Formula
