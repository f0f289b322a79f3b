-- Text between double quotes, as formulas write it: a quote inside is written twice.

namespace Worksheet.Text

/-- Every quote doubled. -/
def double : List Char → List Char
  | [] => []
  | c :: r => if c = '"' then '"' :: '"' :: double r else c :: double r

/-- Each pair of quotes made one, from the left; a quote that stands alone stays. -/
def undouble : List Char → List Char
  | [] => []
  | [c] => [c]
  | c :: d :: r => if c = '"' ∧ d = '"' then '"' :: undouble r else c :: undouble (d :: r)

/-- The text between quotes, with the quotes inside doubled. -/
def enclose (s : String) : String := .ofList ('"' :: double s.toList ++ ['"'])

/-- What stands between the first and the last character, with each pair of quotes made one. -/
def disclose (s : String) : String := .ofList (undouble (s.toList.drop 1).dropLast)

theorem undouble_cons {c : Char} (h : c ≠ '"') (r : List Char) :
    undouble (c :: r) = c :: undouble r := by
  cases r <;> simp [undouble, h]

/-- Undoubling gives back what was doubled. -/
theorem undouble_double (cs : List Char) : undouble (double cs) = cs := by
  induction cs with
  | nil => rfl
  | cons c r ih =>
    by_cases h : c = '"'
    · simp [double, undouble, h, ih]
    · rw [double, if_neg h, undouble_cons h, ih]

/-- What is between the quotes of an enclosed text is the text. -/
theorem disclose_enclose (s : String) : disclose (enclose s) = s := by
  simp [disclose, enclose, undouble_double]

end Worksheet.Text
