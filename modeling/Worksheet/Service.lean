-- The service: a table is posted as JSON, and is answered with its formulas evaluated. Whatever
-- stops the evaluation is answered without a reason.
import Worksheet.Json.Printer
import Worksheet.Json.Reader
import Worksheet.Session
import Worksheet.Text.Encoding

namespace Worksheet.Service

/-! ## Answers -/

inductive Body
  | json (j : Json)
  | text (s : String)

/-- A status and a body. -/
structure Answer where
  status : Nat
  body : Body

def refuse (detail : String) : Answer := ⟨400, .json (.object [("detail", .text detail)])⟩

def failure : Answer := ⟨500, .text "Internal Server Error"⟩

def notJson : String := "Request body must be JSON"

def malformed : String := "Malformed request: 'data' property is missing or invalid."

/-! ## Tables as they are answered -/

mutual

/-- A value of a column's field. What is no finite number is answered as null. -/
def answerValue : Json → Json
  | .float x => if x.isFinite then .float x else .null
  | .array items => .array (answerItems items)
  | .object fields => .object (answerFields fields)
  | j => j

def answerItems : List Json → List Json
  | [] => []
  | j :: rest => answerValue j :: answerItems rest

def answerFields : List (String × Json) → List (String × Json)
  | [] => []
  | (name, j) :: rest => (name, answerValue j) :: answerFields rest

end

/-- Whether a field is left out. -/
def isAbsent : Json → Bool
  | .null => true
  | _ => false

/-- A column. Fields that were sent as null are left out. -/
def answerColumn (c : Column) : Json :=
  .object (("title", .text c.title) :: answerFields (c.extras.filter fun e => !isAbsent e.2))

/-- A cell. Fields without a text are left out. -/
def answerCell (c : Cell) : Json :=
  .object (field "value" c.value ++ field "formula" c.formula ++ field "error" c.error)
where
  field (name : String) : Option String → List (String × Json)
    | none => []
    | some s => [(name, .text s)]

def answerTable (t : Table) : Json :=
  .object [("rows", .int t.rows),
    ("columns", .object (t.columns.entries.map fun e => (e.1, answerColumn e.2))),
    ("data", .object (t.cells.entries.map fun e => (e.1, answerCell e.2)))]

/-! ## Requests -/

/-- The answer to a table that was posted. -/
def answerFor : Except Refusal Recalculated → Answer
  | .ok r =>
    ⟨200, .json (.object [("message", .text "Evaluation received"), ("table", answerTable r.table)])⟩
  | .error (.invalid problems) =>
    refuse (malformed ++ s!" {problems.length} validation error(s)")
  | .error (.fault _) => failure

/-- The answer to a value that was posted, by a service with these settings. -/
def evaluate (j : Json) (settings : Settings := .usual) : Answer :=
  match j with
  | .object fields =>
    match Entries.get? fields "data" with
    | some (.object _) => answerFor ((Draft.ofFields fields).evaluate settings)
    | _ => refuse malformed
  | _ => refuse malformed

/-- The answer to bytes that were posted. They are read down to a depth of arrays and objects. -/
def post (bytes : List UInt8) (settings : Settings := .usual) (depth : Nat := Json.usualDepth) :
    Answer :=
  match Text.decode? bytes with
  | none => refuse notJson
  | some chars =>
    match Json.read chars depth with
    | .ok j => evaluate j settings
    | .error .malformed => refuse notJson
    | .error .tooDeep => failure

def health : Answer := ⟨200, .json (.object [("status", .text "ok")])⟩

end Worksheet.Service
