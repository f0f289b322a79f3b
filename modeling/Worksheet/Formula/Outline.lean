-- A formula as a list of parts, each with its depth: a part comes before what it is made of, in the
-- order of the text. A stack of its own makes the list that plain recursion makes, so a long chain
-- of operators needs no deep calls.
import Worksheet.Formula.Expr

namespace Worksheet.Formula

/-! ## Parts -/

/-- A formula, an expression in it, or a mark that has no value of its own. -/
inductive Part
  | formula (f : Formula)
  | sign
  | opening (pos : Nat)
  | closing (pos : Nat)
  | expr (e : Expr)
  deriving DecidableEq, Repr

def AtomKind.label : AtomKind → String
  | number => "Number"
  | truth => "BoolToken"
  | text => "TextToken"
  | name => "NameToken"
  | cell => "CellToken"

def BinaryOp.label : BinaryOp → String
  | equal => "Eqop"
  | unequal => "Neqop"
  | greater => "Gtop"
  | less => "Ltop"
  | atLeast => "Gteop"
  | atMost => "Lteop"
  | join => "Concatop"
  | plus => "Plusop"
  | minus => "Minop"
  | times => "Mulop"
  | divide => "Divop"
  | power => "Expop"

namespace Part

def label : Part → String
  | formula _ => "Program"
  | sign => "Eqop"
  | opening _ => "OpenParen"
  | closing _ => "CloseParen"
  | expr (.atom a) => a.kind.label
  | expr (.group _ _ _) => "Group"
  | expr (.percent _ _) => "Percentop"
  | expr (.binary op _ _ _) => op.label

def start : Part → Nat
  | formula _ => 0
  | sign => 0
  | opening pos => pos
  | closing pos => pos
  | expr e => e.start

def stop : Part → Nat
  | formula f => f.text.length
  | sign => 1
  | opening pos => pos + 1
  | closing pos => pos + 1
  | expr e => e.stop

/-- The text that a part has besides what it is made of. -/
def ownText : Part → String
  | formula _ => ""
  | sign => Symbol.equal.text
  | opening _ => Symbol.opening.text
  | closing _ => Symbol.closing.text
  | expr (.atom a) => a.text
  | expr (.group _ _ _) => ""
  | expr (.percent _ _) => Symbol.percent.text
  | expr (.binary op _ _ _) => op.symbol.text

/-- What a part is made of. -/
def children : Part → List Part
  | formula f => [sign, expr f.body]
  | expr (.group o inner c) => [opening o, expr inner, closing c]
  | expr (.percent operand _) => [expr operand]
  | expr (.binary _ _ left right) => [expr left, expr right]
  | _ => []

/-- The part that a path of child numbers leads to. -/
def descend? : Part → List Nat → Option Part
  | p, [] => some p
  | p, n :: path => p.children[n]?.bind (·.descend? path)

end Part

def Expr.size : Expr → Nat
  | .atom _ => 1
  | .group _ inner _ => inner.size + 3
  | .percent operand _ => operand.size + 1
  | .binary _ _ left right => left.size + right.size + 1

/-- How many parts a part has, itself among them. -/
def Part.size : Part → Nat
  | .formula f => f.body.size + 2
  | .expr e => e.size
  | _ => 1

/-! ## The outline -/

/-- The outline of an expression at a depth, by recursion. -/
def Expr.outline (depth : Nat) (e : Expr) : List (Part × Nat) :=
  (.expr e, depth) ::
    match e with
    | .atom _ => []
    | .group o inner c =>
      (.opening o, depth + 1) :: inner.outline (depth + 1) ++ [(.closing c, depth + 1)]
    | .percent operand _ => operand.outline (depth + 1)
    | .binary _ _ left right => left.outline (depth + 1) ++ right.outline (depth + 1)

/-- The outline of a part at a depth, by recursion. -/
def Part.outline (depth : Nat) : Part → List (Part × Nat)
  | .formula f => (.formula f, depth) :: (.sign, depth + 1) :: f.body.outline (depth + 1)
  | .expr e => e.outline depth
  | mark => [(mark, depth)]

/-- The sizes of the parts on a stack. -/
def stackSize : List (Part × Nat) → Nat
  | [] => 0
  | (p, _) :: stack => p.size + stackSize stack

theorem stackSize_children (p : Part) (depth below : Nat) (stack : List (Part × Nat)) :
    stackSize (p.children.map (·, below) ++ stack) < stackSize ((p, depth) :: stack) := by
  rcases p with f | _ | _ | _ | e
  case expr => cases e <;> simp [stackSize, Part.children, Part.size, Expr.size] <;> omega
  all_goals simp [stackSize, Part.children, Part.size] <;> omega

/-- Takes the part on top of the stack, and puts what it is made of in its place. -/
def walk : List (Part × Nat) → List (Part × Nat)
  | [] => []
  | (p, depth) :: stack => (p, depth) :: walk (p.children.map (·, depth + 1) ++ stack)
termination_by stack => stackSize stack
decreasing_by exact stackSize_children p depth _ _

theorem walk_cons (p : Part) (depth : Nat) (stack : List (Part × Nat)) :
    walk ((p, depth) :: stack) =
      (p, depth) :: walk (p.children.map (·, depth + 1) ++ stack) := by
  rw [walk]

theorem walk_expr (e : Expr) (depth : Nat) (stack : List (Part × Nat)) :
    walk ((.expr e, depth) :: stack) = e.outline depth ++ walk stack := by
  induction e generalizing depth stack with
  | atom a => simp [walk_cons, Part.children, Expr.outline]
  | group o inner c ih => simp [walk_cons, Part.children, Expr.outline, ih]
  | percent operand sign ih => simp [walk_cons, Part.children, Expr.outline, ih]
  | binary op sign left right ihl ihr =>
    simp [walk_cons, Part.children, Expr.outline, ihl, ihr]

/-- The stack makes the list that recursion makes. -/
theorem walk_eq_outline (p : Part) (depth : Nat) : walk [(p, depth)] = p.outline depth := by
  rcases p with f | _ | _ | _ | e
  case formula =>
    rw [walk_cons]
    simp only [Part.children, List.map_cons, List.map_nil, List.append_nil, Part.outline]
    rw [walk_cons]
    simp only [Part.children, List.map_nil, List.nil_append, walk_expr]
    simp [walk]
  case expr => simp [walk_expr, Part.outline, walk]
  all_goals simp [walk_cons, Part.children, Part.outline, walk]

/-! ## What is read off it -/

def parts (f : Formula) : List (Part × Nat) := walk [(.formula f, 0)]

/-- A leaf that names a cell. -/
def Part.cell? : Part → Option Atom
  | .expr (.atom a) => if a.kind = .cell then some a else none
  | _ => none

/-- The leaves that name cells, in the order of the text. -/
def cells (f : Formula) : List Atom := f.parts.filterMap (·.1.cell?)

/-- The characters from one position to another. -/
def slice (cs : List Char) (start stop : Nat) : List Char := (cs.drop start).take (stop - start)

/-- The line of a part in an outline: its name, its span, and the characters there. -/
def Part.line (cs : List Char) (p : Part) (depth : Nat) : String :=
  "".pushn ' ' (2 * depth) ++ s!"{p.label} [{p.start}-{p.stop}]: " ++
    "\"" ++ .ofList (slice cs p.start p.stop) ++ "\""

def dump (f : Formula) : String :=
  let cs := f.text.toList
  "\n".intercalate (f.parts.map fun (p, depth) => p.line cs depth)

end Worksheet.Formula
