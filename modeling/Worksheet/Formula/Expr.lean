-- The tree of a formula. Leaves and marks keep where they stand; every other place is worked out
-- from them, so a span cannot disagree with what it spans.
import Worksheet.Formula.Token

namespace Worksheet

namespace Formula

/-- What a leaf stands for. -/
inductive AtomKind
  | number
  | truth
  | text
  | name
  | cell
  deriving DecidableEq, Repr

structure Atom where
  kind : AtomKind
  text : String
  start : Nat
  deriving DecidableEq, Repr

inductive BinaryOp
  | equal
  | unequal
  | greater
  | less
  | atLeast
  | atMost
  | join
  | plus
  | minus
  | times
  | divide
  | power
  deriving DecidableEq, Repr

def BinaryOp.symbol : BinaryOp → Symbol
  | equal => .equal
  | unequal => .unequal
  | greater => .greater
  | less => .less
  | atLeast => .atLeast
  | atMost => .atMost
  | join => .join
  | plus => .plus
  | minus => .minus
  | times => .times
  | divide => .divide
  | power => .power

/-- An expression. `sign` is where an operator stands, `opening` and `closing` where the
parentheses of a group do. -/
inductive Expr
  | atom (a : Atom)
  | group (opening : Nat) (inner : Expr) (closing : Nat)
  | percent (operand : Expr) (sign : Nat)
  | binary (op : BinaryOp) (sign : Nat) (left right : Expr)
  deriving DecidableEq, Repr

end Formula

/-- A formula: its text, and the expression after the equals sign. -/
structure Formula where
  text : String
  body : Formula.Expr
  deriving DecidableEq, Repr

namespace Formula

/-- The position of the first character of an expression. -/
def Expr.start : Expr → Nat
  | .atom a => a.start
  | .group opening _ _ => opening
  | .percent operand _ => operand.start
  | .binary _ _ left _ => left.start

/-- The position after the last character of an expression. -/
def Expr.stop : Expr → Nat
  | .atom a => a.start + a.text.length
  | .group _ _ closing => closing + 1
  | .percent _ sign => sign + 1
  | .binary _ _ _ right => right.stop

def Atom.token (a : Atom) : Token :=
  let kind : TokenKind :=
    match a.kind with
    | .number => .number
    | .text => .text
    | .truth | .name | .cell => .name
  ⟨kind, a.text, a.start⟩

def Symbol.token (s : Symbol) (start : Nat) : Token := ⟨.symbol s, s.text, start⟩

/-- The tokens that an expression was read from. -/
def Expr.tokens : Expr → List Token
  | .atom a => [a.token]
  | .group opening inner closing =>
    Symbol.opening.token opening :: inner.tokens ++ [Symbol.closing.token closing]
  | .percent operand sign => operand.tokens ++ [Symbol.percent.token sign]
  | .binary op sign left right => left.tokens ++ op.symbol.token sign :: right.tokens

/-- How deep groups stand in groups. -/
def Expr.nesting : Expr → Nat
  | .atom _ => 0
  | .group _ inner _ => inner.nesting + 1
  | .percent operand _ => operand.nesting
  | .binary _ _ left right => max left.nesting right.nesting

/-- The leaves that name cells, from left to right. -/
def Expr.cells : Expr → List Atom
  | .atom a => if a.kind = .cell then [a] else []
  | .group _ inner _ => inner.cells
  | .percent operand _ => operand.cells
  | .binary _ _ left right => left.cells ++ right.cells

end Formula

end Worksheet
