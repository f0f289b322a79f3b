-- White space: what separates tokens, and what is cut off at the ends of a text.

namespace Worksheet.Text

/-- A blank: the spaces, tabs, line and paragraph ends of Unicode, and the four information
separators before the space. -/
def isBlank (c : Char) : Bool :=
  let n := c.toNat
  (9 ≤ n && n ≤ 13) || (28 ≤ n && n ≤ 32) || n == 0x85 || n == 0xA0 || n == 0x1680 ||
    (0x2000 ≤ n && n ≤ 0x200A) || n == 0x2028 || n == 0x2029 || n == 0x202F || n == 0x205F ||
    n == 0x3000

/-- White space proper: the blanks without the information separators. -/
def isSpace (c : Char) : Bool := isBlank c && !(28 ≤ c.toNat && c.toNat ≤ 31)

/-- The characters without those at either end that `p` accepts. -/
def trimBy (p : Char → Bool) (cs : List Char) : List Char :=
  ((cs.dropWhile p).reverse.dropWhile p).reverse

def strip (s : String) : String := .ofList (trimBy isBlank s.toList)

/-- Where neither end is accepted nothing is cut off. -/
theorem trimBy_eq_self {p : Char → Bool} {cs : List Char}
    (first : ∀ c, cs.head? = some c → p c = false)
    (last : ∀ c, cs.getLast? = some c → p c = false) : trimBy p cs = cs := by
  have drop : ∀ l : List Char, (∀ c, l.head? = some c → p c = false) → l.dropWhile p = l := by
    intro l h
    cases l with
    | nil => rfl
    | cons c r => simp [h c rfl]
  rw [trimBy, drop cs first, drop cs.reverse (fun c hc => last c (by simpa using hc)),
    List.reverse_reverse]

end Worksheet.Text
