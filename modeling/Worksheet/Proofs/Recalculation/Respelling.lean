-- Tables spelled with other letters in columns, keys and the names in formulas are recalculated as
-- the first ones are.
import Worksheet.Proofs.Formula.Respelling
import Worksheet.Proofs.Recalculation.Likeness

namespace Worksheet

open Worksheet.Text (SameLetters)

/-- The second cell is the first with other letters in the names of its formula. -/
structure Cell.Respelled (c d : Cell) : Prop where
  value : c.value = d.value
  error : c.error = d.error
  formula : Option.Rel (fun text text' => Formula.Respelled text.toList text'.toList)
    c.formula d.formula

structure EntryRespelled (e d : String × Cell) : Prop where
  key : SameLetters e.1.toList d.1.toList
  cell : e.2.Respelled d.2

/-- The second table is the first with other letters in columns, keys and names in formulas. -/
structure Table.Respelled (t u : Table) : Prop where
  rows : t.rows = u.rows
  columns : List.Forall₂ (fun name name' => SameLetters name.toList name'.toList)
    t.columns.keys u.columns.keys
  entries : List.Forall₂ EntryRespelled t.cells.entries u.cells.entries

variable {c d : Cell} {t u : Table}

theorem Cell.Respelled.formula? (h : c.Respelled d) :
    Option.Rel (fun text text' => Formula.Respelled text.toList text'.toList)
      c.formula? d.formula? := by
  unfold Cell.formula?
  rcases cases_of_rel h.formula with ⟨left, right⟩ | ⟨text, text', left, right, respelled⟩ <;>
    rw [left, right]
  · exact .none
  · have empty := respelled.sameLetters.eq_empty_iff
    by_cases here : text = ""
    · rw [here, empty.1 here]
      exact .none
    · have kept : ∀ s : String, s ≠ "" → (some s).filter (· ≠ "") = some s := by
        intro s full
        simp [full]
      rw [kept text here, kept text' (mt empty.2 here)]
      exact .some respelled

theorem Cell.Respelled.alike (h : c.Respelled d) (limit : Formula.Limit) : c.Alike limit d := by
  rcases cases_of_rel h.formula? with ⟨left, right⟩ | ⟨text, text', left, right, respelled⟩
  · refine ⟨h.value, h.error, by rw [left, right], ?_⟩
    rw [Cell.parsed?, Cell.parsed?, left, right]
    exact .none
  · refine ⟨h.value, h.error, by rw [left, right]; rfl, ?_⟩
    rw [Cell.parsed?, Cell.parsed?, left, right]
    exact respelled.parse_alike limit

theorem Table.Respelled.bounds_eq (h : t.Respelled u) : t.bounds = u.bounds := by
  have columns : t.columns.keys.map Text.upper = u.columns.keys.map Text.upper := by
    rw [← List.forall₂_eq_eq_eq, List.forall₂_map_left_iff, List.forall₂_map_right_iff]
    exact h.columns.imp fun _ _ same => same.upper_eq
  unfold Table.bounds Bounds.ofColumns
  rw [columns, h.rows]

theorem Table.Respelled.alike (h : t.Respelled u) (limit : Formula.Limit) : t.Alike limit u where
  bounds := h.bounds_eq
  entries := h.entries.imp fun _ _ entry => ⟨entry.key.upper_eq, entry.cell.alike limit⟩

/-- Where a table is recalculated it is so with other letters, too, and each entry comes back with
the value and the error that it has with the first ones. -/
theorem Table.recalculate_of_respelled {settings : Settings} {r : Recalculated}
    (respelled : t.Respelled u) (h : t.recalculate settings = .ok r) :
    ∃ r', u.recalculate settings = .ok r' ∧ List.Forall₂ (fun key key' =>
      ∃ c c', r.table.cells.get? key = some c ∧ r'.table.cells.get? key' = some c' ∧
        c.value = c'.value ∧ c.error = c'.error) t.cells.keys u.cells.keys :=
  (respelled.alike settings.limit).recalculate h

/-- A table with a sum, an entry with the key of the sum, and a truth word; the letters are left
open. -/
def Table.lettered (column key again sum copy word : String) : Table where
  rows := 2
  columns := .ofEntries [(column, ⟨"", []⟩), ("B", ⟨"", []⟩)]
  cells := .ofEntries [(key, ⟨none, some sum, none⟩), ("B1", ⟨some "2", none, none⟩),
    (again, ⟨none, some copy, none⟩), ("B2", ⟨none, some word, none⟩)]

/-- The power of ten stays as it is spelled, next to a name in other letters. -/
theorem recalculate_of_respelled_of_lettered :
    ∃ r r', (Table.lettered "A" "a1" "A1" "=1e2+b1" "=b1" "=true").recalculate .usual = .ok r ∧
      (Table.lettered "a" "A1" "a1" "=1e2+B1" "=B1" "=TruE").recalculate .usual = .ok r' ∧
      (∃ c, r'.table.cells.get? "A1" = some c ∧ c.value = some "102" ∧ c.error = none) ∧
      ∃ c, r'.table.cells.get? "a1" = some c ∧ c.value = none ∧ c.error = some "#REF!" := by
  have respelled : (Table.lettered "A" "a1" "A1" "=1e2+b1" "=b1" "=true").Respelled
      (Table.lettered "a" "A1" "a1" "=1e2+B1" "=B1" "=TruE") := by
    refine ⟨rfl, .cons (by decide) (.cons rfl .nil), .cons ⟨by decide, rfl, rfl, .some ?_⟩
      (.cons ⟨rfl, rfl, rfl, .none⟩ (.cons ⟨by decide, rfl, rfl, .some ?_⟩
      (.cons ⟨rfl, rfl, rfl, .some ?_⟩ .nil)))⟩ <;> decide +kernel
  have shown : ((Table.lettered "A" "a1" "A1" "=1e2+b1" "=b1" "=true").recalculate
      .usual).toOption.map (fun r => (r.table.cells.get? "a1", r.table.cells.get? "A1")) =
      some (some ⟨some "102", some "=1e2+b1", none⟩, some ⟨none, some "=b1", some "#REF!"⟩) := by
    decide +kernel
  obtain ⟨r, result, cells⟩ := Option.map_eq_some_iff.1 shown
  have first := eq_ok_of_toOption result
  obtain ⟨r', second, same⟩ := Table.recalculate_of_respelled respelled first
  rw [Prod.mk.injEq] at cells
  have keys : List.Forall₂ _ ["a1", "B1", "A1", "B2"] ["A1", "B1", "a1", "B2"] := same
  simp only [List.forall₂_cons, cells.1, cells.2] at keys
  obtain ⟨⟨_, c, ⟨rfl⟩, found, value, error⟩, _, ⟨_, c', ⟨rfl⟩, found', value', error'⟩, _⟩ := keys
  exact ⟨r, r', first, second, ⟨c, found, value.symm, error.symm⟩,
    c', found', value'.symm, error'.symm⟩

end Worksheet
