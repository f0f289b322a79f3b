-- JSON values. Whole numbers and doubles are kept apart, as a text with a point or a power of ten
-- is a double. Fields keep their order.
import Worksheet.Roster

namespace Worksheet

inductive Json
  | null
  | bool (b : Bool)
  | int (n : Int)
  | float (x : Float)
  | text (s : String)
  | array (items : List Json)
  | object (fields : List (String × Json))

namespace Json

def fields? : Json → Option (List (String × Json))
  | object fields => some fields
  | _ => none

def field? (j : Json) (name : String) : Option Json :=
  j.fields?.bind fun fields => Entries.get? fields name

/-- The object with some fields; of two with one name the later value counts, in the place of the
first. -/
def ofFields (fields : List (String × Json)) : Json :=
  object (fields.foldl (fun es e => Entries.put es e.1 e.2) [])

def texts (ss : List String) : Json := array (ss.map text)

end Json

end Worksheet
