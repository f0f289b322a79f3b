-- What can go wrong. A formula error belongs to one cell and is shown there as a code; a fault
-- stops the whole operation. Each is a cause, and one function gives its words.
import Worksheet.Number.Shortest
import Worksheet.Text.Quoted

namespace Worksheet

open Worksheet.Text (quoted quotedList)

/-! ## Codes -/

/-- What a cell shows in place of a value. -/
inductive ErrorCode
  | reference
  | divisionByZero
  | value
  | name
  | formula
  deriving DecidableEq, Repr

namespace ErrorCode

def text : ErrorCode → String
  | .reference => "#REF!"
  | .divisionByZero => "#DIV/0!"
  | .value => "#VALUE!"
  | .name => "#NAME!"
  | .formula => "#ERROR!"

def all : List ErrorCode := [.reference, .divisionByZero, .value, .name, .formula]

def ofText? (s : String) : Option ErrorCode := all.find? (·.text = s)

end ErrorCode

/-! ## Formula errors -/

/-- Why a text is no formula. Positions count characters from zero. -/
inductive ParseError
  | missingSign
  /-- No token starts at the character. -/
  | strayChar (c : Char) (pos : Nat)
  /-- The token cannot stand where it is. -/
  | misplaced (token : String) (pos : Nat)
  /-- A group is open, and something else than its end stands at the position. -/
  | unclosedGroup (pos : Nat)
  | endOfFormula
  /-- Groups stand in groups past the limit that was set. -/
  | nestedPast (limit : Int)
  /-- There is no room on the stack for the calls that reading takes. -/
  | nestedTooDeeply
  deriving DecidableEq, Repr

def ParseError.message : ParseError → String
  | missingSign => "Formula must start with '='"
  | strayChar c pos => s!"Unexpected '{c}' at pos {pos}"
  | misplaced token pos => s!"Unexpected '{token}' at pos {pos}"
  | unclosedGroup pos => s!"Expected ')' at pos {pos}"
  | endOfFormula => "Unexpected end of formula"
  | nestedPast limit => s!"Formula nested deeper than {limit} levels"
  | nestedTooDeeply => "Formula nested too deeply to parse"

inductive ErrorFamily
  | malformed
  | reference
  | cycle
  | divisionByZero
  | wrongType
  | unsupportedName
  deriving DecidableEq, Repr

def ErrorFamily.code : ErrorFamily → ErrorCode
  | malformed => .formula
  | reference => .reference
  | cycle => .reference
  | divisionByZero => .divisionByZero
  | wrongType => .value
  | unsupportedName => .name

/-- Why a formula has no value. -/
inductive FormulaError
  | malformed (cause : ParseError)
  /-- The text names no cell. -/
  | badKey (key : String)
  /-- No cell has the key. -/
  | unknownCell (key : String)
  | divisionByZero
  | zeroToNegative
  /-- The number is infinite, or is no number. -/
  | notFinite (x : Float)
  /-- A number was due, and the text stands for none. -/
  | notNumeric (text : String)
  /-- A number was due, and an error code came. -/
  | errorOperand (code : ErrorCode)
  /-- A power that is no real number. -/
  | powerDomain (base exponent : Float)
  /-- A power past the largest double. -/
  | powerRange (base exponent : Float)
  | unsupportedName (name : String)
  /-- An error that a look-up brings, with a code and words of its own. -/
  | reported (family : ErrorFamily) (code : ErrorCode) (message : String)

namespace FormulaError

def family : FormulaError → ErrorFamily
  | malformed _ => .malformed
  | badKey _ | unknownCell _ => .reference
  | divisionByZero | zeroToNegative => .divisionByZero
  | notFinite _ | notNumeric _ | errorOperand _ | powerDomain _ _ | powerRange _ _ => .wrongType
  | unsupportedName _ => .unsupportedName
  | reported family _ _ => family

/-- What the cell shows. -/
def code : FormulaError → ErrorCode
  | reported _ code _ => code
  | e => e.family.code

def message : FormulaError → String
  | malformed cause => cause.message
  | badKey key => "Bad cell reference: " ++ key
  | unknownCell key => "Unknown cell: " ++ key
  | divisionByZero => "Division by zero"
  | zeroToNegative => "Zero raised to a negative power"
  | notFinite x => "Result is not a finite number: " ++ Number.shortest x
  | notNumeric text => "Expected a number, got text " ++ quoted text
  | errorOperand code => "Expected a number, got " ++ code.text
  | powerDomain b e => powerText b e ++ "math domain error"
  | powerRange b e => powerText b e ++ "math range error"
  | unsupportedName name => "Unsupported name: " ++ name
  | reported _ _ message => message
where
  powerText (b e : Float) : String :=
    "Cannot raise " ++ Number.shortest b ++ " to " ++ Number.shortest e ++ ": "

theorem code_eq_family_code {e : FormulaError}
    (h : ∀ family code message, e ≠ reported family code message) : e.code = e.family.code := by
  cases e with
  | reported family code message => exact absurd rfl (h family code message)
  | _ => rfl

end FormulaError

/-! ## Faults -/

/-- What stops an operation. -/
inductive Fault
  /-- A formula error that no cell has taken yet. -/
  | formula (e : FormulaError)
  /-- A row number with more digits than are ever read. -/
  | rowDigits (digits : Nat)
  | unknownCode (text : String)
  /-- A number was due, and the text stands for none. -/
  | unreadable (text : String)
  | infinityAsWhole
  | nanAsWhole
  /-- A punctuation mark has no value. -/
  | mark (kind : String) (pos : Nat)
  /-- The sign that starts a formula has no operands. -/
  | leadingSign (kind : String) (pos : Nat)
  | noNode (key : String)
  | noEndpoint (source target : String)
  /-- The nodes that wait for each other. -/
  | cycle (stuck : List String)
  | unevaluated (key : String)

namespace Fault

/-- The most digits that a row number may have. -/
def maxRowDigits : Nat := 4300

def message : Fault → String
  | formula e => e.message
  | rowDigits digits =>
    s!"Exceeds the limit ({maxRowDigits} digits) for integer string conversion: value has " ++
      s!"{digits} digits; use sys.set_int_max_str_digits() to increase the limit"
  | unknownCode text => quoted text ++ " is not a valid ErrorCode"
  | unreadable text => "could not convert string to float: " ++ quoted text
  | infinityAsWhole => "cannot convert float infinity to integer"
  | nanAsWhole => "cannot convert float NaN to integer"
  | mark kind pos => s!"{kind} node at {pos} is not evaluable"
  | leadingSign kind pos => s!"{kind} node at {pos} has no operands"
  | noNode key => key
  | noEndpoint source target => "Both endpoints must exist: " ++ source ++ " -> " ++ target
  | cycle stuck => "Dependency graph contains a cycle involving: " ++ quotedList stuck
  | unevaluated key => "No result for cell: " ++ key

end Fault

end Worksheet
