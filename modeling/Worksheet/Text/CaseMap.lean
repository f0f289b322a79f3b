-- Case maps past ASCII, as two lists: runs of characters that all move by one distance, and
-- characters that become several.

namespace Worksheet.Text

/-- A map of characters past ASCII. -/
structure CaseMap where
  /-- First character, last character, step from one to the next, and how far each moves. -/
  runs : List (Nat × Nat × Nat × Int)
  /-- A character and the characters that it becomes. -/
  spelled : List (Nat × List Nat)

namespace CaseMap

/-- What a character becomes: itself where no list has it. -/
def image (m : CaseMap) (c : Char) : List Char :=
  match m.spelled.lookup c.toNat with
  | some cs => cs.map Char.ofNat
  | none =>
    match m.runs.find? fun (first, last, step, _) =>
        first ≤ c.toNat && c.toNat ≤ last && (c.toNat - first) % step == 0 with
    | some (_, _, _, distance) => [Char.ofNat (c.toNat + distance).toNat]
    | none => [c]

/-- No run meets the next one, and each steps forward. -/
def Ordered (m : CaseMap) : Prop :=
  (∀ r ∈ m.runs, r.1 ≤ r.2.1 ∧ 0 < r.2.2.1) ∧ m.spelled.Pairwise (fun a b => a.1 < b.1)

instance (m : CaseMap) : Decidable m.Ordered :=
  inferInstanceAs (Decidable (_ ∧ _))

end CaseMap

end Worksheet.Text
