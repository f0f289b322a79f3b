-- What is wrong with a table that was sent: where, and what kind of wrong.

namespace Worksheet

inductive ProblemKind
  | missing
  | notAnObject
  /-- Something else than an object stands for a cell or a column. -/
  | notARecord
  | notAText
  | notAWholeNumber
  | unreadableWholeNumber
  | tooLongWholeNumber
  | fraction
  | notFinite
  | belowZero
  deriving DecidableEq, Repr

def ProblemKind.text : ProblemKind → String
  | missing => "missing"
  | notAnObject => "dict_type"
  | notARecord => "model_type"
  | notAText => "string_type"
  | notAWholeNumber => "int_type"
  | unreadableWholeNumber => "int_parsing"
  | tooLongWholeNumber => "int_parsing_size"
  | fraction => "int_from_float"
  | notFinite => "finite_number"
  | belowZero => "greater_than_equal"

/-- A problem, and the names of the fields that lead to it. -/
structure Problem where
  path : List String
  kind : ProblemKind
  deriving DecidableEq, Repr

namespace Problem

def location (p : Problem) : String := ".".intercalate p.path

/-- Whether one problem is listed before another: by place, and then by kind. -/
def before (p q : Problem) : Bool :=
  p.location < q.location || (p.location == q.location && p.kind.text ≤ q.kind.text)

def sort (ps : List Problem) : List Problem := ps.mergeSort before

end Problem

/-- Something that was checked, or all that is wrong with it. -/
abbrev Checked (α : Type) := Except (List Problem) α

namespace Checked

variable {α β γ : Type}

def problems : Checked α → List Problem
  | .ok _ => []
  | .error ps => ps

def problem (path : List String) (kind : ProblemKind) : Checked α := .error [⟨path, kind⟩]

/-- Two things checked; what is wrong with either counts. -/
def both (f : α → β → γ) (x : Checked α) (y : Checked β) : Checked γ :=
  match x, y with
  | .ok a, .ok b => .ok (f a b)
  | _, _ => .error (x.problems ++ y.problems)

/-- Entries checked one by one; what is wrong with any of them counts. -/
def entries (check : String → α → Checked β) : List (String × α) → Checked (List (String × β))
  | [] => .ok []
  | (key, a) :: rest => both (fun b bs => (key, b) :: bs) (check key a) (entries check rest)

end Checked

end Worksheet
