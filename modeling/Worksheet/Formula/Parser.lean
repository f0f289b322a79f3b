-- Reads the tokens of a formula as an expression. From the loosest to the tightest there are
-- comparisons, joins, sums, products, one percent sign, and powers; every operator groups to the
-- left. Groups take up room, and the readers call each other on a stack that may run out.
import Worksheet.CellKey
import Worksheet.Formula.Expr

namespace Worksheet.Formula

open Worksheet.Text (upper)

/-! ## Operators -/

/-- The operator that a symbol writes between two operands. -/
def Symbol.operator? : Symbol → Option BinaryOp
  | equal => some .equal
  | unequal => some .unequal
  | greater => some .greater
  | less => some .less
  | atLeast => some .atLeast
  | atMost => some .atMost
  | join => some .join
  | plus => some .plus
  | minus => some .minus
  | times => some .times
  | divide => some .divide
  | power => some .power
  | percent | opening | closing => none

/-- How tightly an operator binds. Rank 4 is left for the percent sign. -/
def BinaryOp.rank : BinaryOp → Nat
  | equal | unequal | greater | less | atLeast | atMost => 0
  | join => 1
  | plus | minus => 2
  | times | divide => 3
  | power => 5

/-- The operator of a rank that a token writes. -/
def Token.operator? (rank : Nat) (t : Token) : Option BinaryOp :=
  match t.kind with
  | .symbol s => s.operator?.filter (·.rank = rank)
  | _ => none

theorem Symbol.operator?_eq_some {s : Symbol} {op : BinaryOp} :
    s.operator? = some op ↔ op.symbol = s := by
  cases s <;> cases op <;> decide

/-! ## Readers -/

/-- Reads an expression off the front of the tokens, and gives the tokens after it. -/
abbrev Reader := List Token → Except ParseError (Expr × List Token)

/-- A reader that calls others, by how many calls there is still room for on the stack. -/
abbrev Caller := Nat → Reader

/-- Goes on after `left` as long as operators of the rank follow. Each round takes tokens, so the
budget, a list as long as the tokens are, does not run out first. -/
def rounds (rank : Nat) (operand : Reader) : List Token → Expr → Reader
  | _, left, [] => .ok (left, [])
  | [], left, rest => .ok (left, rest)
  | _ :: budget, left, t :: rest =>
    match t.operator? rank with
    | none => .ok (left, t :: rest)
    | some op => do
      let (right, rest) ← operand rest
      rounds rank operand budget (.binary op t.start left right) rest

/-- How many calls stand between a chain and an operand on the right of its operators. The first
operand is called at once. -/
def aside (rank : Nat) : Nat := if rank = 5 then 1 else 2

/-- Operands with operators of the rank between them. -/
def chain (rank : Nat) (operand : Caller) : Caller := fun calls tokens => do
  let (left, rest) ← operand (calls - 1) tokens
  rounds rank (operand (calls - 1 - aside rank)) tokens left rest

/-- An operand with a percent sign after it or none. It is the second of two calls. -/
def percented (operand : Caller) : Caller := fun calls tokens => do
  let (e, rest) ← operand (calls - 2) tokens
  match rest with
  | [] => .ok (e, [])
  | t :: after =>
    if t.kind = .symbol .percent then .ok (.percent e t.start, after) else .ok (e, rest)

/-- All ranks, over what stands in the tightest. -/
def ranks (primary : Caller) : Caller :=
  chain 0 (chain 1 (chain 2 (chain 3 (percented (chain 5 primary)))))

/-- A call that looks at the next token, for which it makes two more. Every reader comes to such
a call before it takes a token, so it is here that a stack without room shows. -/
def looking (read : Caller) : Caller := fun calls tokens =>
  if calls < 3 then .error .nestedTooDeeply else read (calls - 1) tokens

/-! ## Leaves and groups -/

/-- What a name stands for: a truth value, a cell, or nothing that is known. -/
def nameKind (name : String) : AtomKind :=
  if upper name = "TRUE" ∨ upper name = "FALSE" then .truth
  else if isCellKey name then .cell
  else .name

def Token.atom? (t : Token) : Option Atom :=
  match t.kind with
  | .number => some ⟨.number, t.text, t.start⟩
  | .text => some ⟨.text, t.text, t.start⟩
  | .name => some ⟨nameKind t.text, t.text, t.start⟩
  | .symbol _ => none

/-- A leaf, or what `group` reads after an opening parenthesis, which it is given the place of. -/
def primary (group : Nat → Caller) : Caller := looking fun calls tokens =>
  match tokens with
  | [] => .error .endOfFormula
  | t :: rest =>
    if t.kind = .symbol .opening then group t.start calls rest
    else
      match t.atom? with
      | some a => .ok (.atom a, rest)
      | none => .error (.misplaced t.text t.start)

/-- An expression and the parenthesis that closes its group; `stop` is where the text ends. -/
def closed (stop : Nat) (inner : Caller) (opening : Nat) : Caller := looking fun calls tokens => do
  let (e, rest) ← inner calls tokens
  match rest with
  | [] => .error (.unclosedGroup stop)
  | t :: after =>
    if t.kind = .symbol .closing then .ok (.group opening e t.start, after)
    else .error (.unclosedGroup t.start)

/-- An expression with room for so many groups within groups. -/
def expression (refusal : ParseError) (stop : Nat) : Nat → Caller
  | 0 => ranks (primary fun _ => looking fun _ _ => .error refusal)
  | room + 1 => ranks (primary (closed stop (expression refusal stop room)))

/-! ## Formulas -/

/-- How far down a formula is read. -/
structure Limit where
  /-- How deep groups may stand in groups. -/
  depth : Int
  /-- How many calls there is room for on the stack. -/
  stack : Nat
  /-- There is room for those that reach a leaf and look at it. -/
  enough : 10 ≤ stack

/-- How deep groups may stand in groups where nothing else is asked for. -/
def usualLimit : Int := 50

/-- How many calls there is room for where the parser is not called from far down: a thousand are
the most that the stack holds, and those around the parser are a few. -/
def usualStack : Nat := 995

/-- A depth by itself is a limit with the usual stack. -/
instance : Coe Int Limit := ⟨fun depth => ⟨depth, usualStack, by decide⟩⟩

/-- The formula that a text is. The equals sign that starts it is not one of its operators. -/
def parse (text : String) (limit : Limit) : Except ParseError Formula := do
  if text.toList.head? ≠ some '=' then .error .missingSign
  let tokens ← scan text
  let (body, rest) ← expression (.nestedPast limit.depth) text.length limit.depth.toNat
    limit.stack (tokens.drop 1)
  match rest with
  | [] => .ok ⟨text, body⟩
  | t :: _ => .error (.misplaced t.text t.start)

end Worksheet.Formula
