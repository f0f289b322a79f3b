-- The summary of a recalculation. Errors are counted by key, and they show by entry. So the summary
-- counts every error that shows, save for those of formulas whose key an earlier entry has.
import Worksheet.Proofs.Recalculation.Inputs
import Worksheet.Proofs.Recalculation.Passes
import Worksheet.Proofs.Recalculation.Showing

namespace Worksheet

open Worksheet.Text (upper)

def Cell.showsError (c : Cell) : Bool := c.formula?.isSome && c.error.isSome

def Table.errorCount (t : Table) : Nat := t.cells.entries.countP (·.2.showsError)

/-- Whether an entry is the first one with its key. -/
def leads (entries : List (String × Cell)) (e : String × Cell) : Bool :=
  first? entries (upper e.1) = some e

/-- How many formulas of a table have a key that an earlier entry has. -/
def Table.repeatCount (t : Table) : Nat :=
  t.cells.entries.countP fun e => e.2.formula?.isSome && !leads t.cells.entries e

theorem leads_iff {entries : List (String × Cell)} {e : String × Cell} :
    leads entries e = true ↔ first? entries (upper e.1) = some e := decide_eq_true_iff

variable {settings : Settings} {t : Table} {r : Recalculated} {w v : Wiring} {order : List String}

theorem Table.repeatCount_eq_zero_iff :
    t.repeatCount = 0 ↔ ∀ e ∈ t.cells.entries, e.2.formula?.isSome →
      first? t.cells.entries (upper e.1) = some e := by
  simp [repeatCount, List.countP_eq_zero, leads]

theorem nodup_leading (cells : Roster Cell) :
    ((cells.entries.filter (leads cells.entries)).map fun e => upper e.1).Nodup := by
  have entries : cells.entries.Nodup := cells.nodup.of_map _
  refine (entries.filter _).map_on fun a ha b hb same => ?_
  have first := leads_iff.1 (List.mem_filter.1 ha).2
  have first' := leads_iff.1 (List.mem_filter.1 hb).2
  rw [same, first'] at first
  exact (Option.some.inj first).symm

/-- The keys where an error shows are those of first entries where one shows. -/
theorem Table.Pass.failures_eq (pass : t.Pass settings r w v order) :
    v.failures =
      t.cells.entries.countP fun e => leads t.cells.entries e && v.failsAt (upper e.1) := by
  have keys : ((t.cells.entries.filter (leads t.cells.entries)).map fun e => upper e.1).countP
      v.failsAt = v.failures := by
    unfold Wiring.failures
    rw [List.countP_eq_length_filter, List.countP_eq_length_filter]
    refine List.Perm.length_eq ((List.perm_ext_iff_of_nodup ((nodup_leading _).filter _)
      (v.graph.nodes.nodup.filter _)).2 fun key => ?_)
    simp only [List.mem_filter, List.mem_map]
    refine and_congr_left fun fails => ?_
    constructor
    · rintro ⟨e, ⟨_, leading⟩, rfl⟩
      rw [pass.settled.graph]
      exact pass.wired.nodes _ e (leads_iff.1 leading)
    · intro _
      rcases first : first? t.cells.entries key with _ | e
      · -- Without an entry there is no slot, neither before nor after the evaluation.
        have slot := pass.wired.slots key
        rw [first, Option.map_none] at slot
        have kept := pass.settled.kept key fun s found => by cases slot.symm.trans found
        rw [Wiring.failsAt, kept, slot] at fails
        cases fails
      · have key' := upper_of_first? first
        exact ⟨e, ⟨mem_of_first? first, leads_iff.2 (key' ▸ first)⟩, key'⟩
  rw [← keys, List.countP_map, List.countP_filter]
  exact List.countP_congr fun e _ => by simp [Bool.and_comm]

theorem Table.Pass.cell_eq (pass : t.Pass settings r w v order) {key : String} {e : String × Cell}
    (first : first? t.cells.entries key = some e) {s : Slot} (found : v.slots.get? key = some s) :
    s.cell = e.2 := by
  have start := pass.wired.slots key
  rw [first, Option.map_some] at start
  have cell : ∀ s', w.slots.get? key = some s' → s'.cell = e.2 := by
    intro s' there
    rw [start, Option.some.injEq] at there
    rw [← there]
    split <;> rfl
  by_cases idle : ∀ s', w.slots.get? key = some s' → s'.due = none
  · exact cell s (pass.settled.kept key idle ▸ found)
  · obtain ⟨s', f, there, due⟩ := (w.due_or_idle key).resolve_right idle
    by_cases out : key ∈ order
    · obtain ⟨x, _, _, now⟩ := pass.settled.settled key out s' f there due
      cases found.symm.trans now
      exact cell s' there
    · exact cell s (pass.settled.untouched key out ▸ found)

theorem Table.Pass.error_of_leads (pass : t.Pass settings r w v order) {e : String × Cell}
    (first : first? t.cells.entries (upper e.1) = some e) {text : String}
    (written : e.2.formula? = some text) {c : Cell} (found : r.table.cells.get? e.1 = some c) :
    c.error.isSome = v.failsAt (upper e.1) := by
  obtain ⟨s, o, c', slot, outcome, _, shown, result⟩ := pass.exists_slot first written
  cases found.symm.trans shown
  have formula : s.isFormula = true := by
    rw [Slot.isFormula, pass.cell_eq first slot, written]
    rfl
  rw [Wiring.failsAt, slot, Option.any_some, formula, Slot.failed, outcome]
  rcases resultCell_cases result with ⟨code, rfl, rfl⟩ | ⟨x, s', rfl, rfl⟩ <;> rfl

theorem Table.Pass.failsAt_of_literal (pass : t.Pass settings r w v order) {e : String × Cell}
    (first : first? t.cells.entries (upper e.1) = some e) (literal : e.2.formula? = none) :
    v.failsAt (upper e.1) = false := by
  rw [Wiring.failsAt, pass.settled.literal_slot pass.wired first literal]
  simp [Slot.isFormula, literal]

theorem Wiring.formula?_of_finalCell {entry : String} {cell c : Cell}
    (final : v.finalCell entry cell = .ok c) : c.formula? = cell.formula? := by
  rw [Cell.formula?, (finalCell_input final).1, Cell.formula?]

/-- Which entries show an error: of the first ones with their keys those whose key does, and of the
others the formulas. -/
theorem Table.Pass.showsError_eq (pass : t.Pass settings r w v order) {e : String × Cell}
    (member : e ∈ t.cells.entries) :
    (r.table.cells.get? e.1).any Cell.showsError =
      if leads t.cells.entries e then v.failsAt (upper e.1) else e.2.formula?.isSome := by
  obtain ⟨c, final, found⟩ := Roster.get?_traverse pass.cells (t.cells.get?_of_mem member)
  rw [found, Option.any_some, Cell.showsError, Wiring.formula?_of_finalCell final]
  rcases written : e.2.formula? with _ | text
  · split
    · rename_i leading
      rw [pass.failsAt_of_literal (leads_iff.1 leading) written]
      rfl
    · rfl
  · split
    · rename_i leading
      rw [pass.error_of_leads (leads_iff.1 leading) written found]
      rfl
    · rename_i later
      have shown := pass.shows_repeated member (fun first => later (leads_iff.2 first)) written
      cases found.symm.trans shown
      rfl

/-- What shows an error in a table is counted over the keys that it was sent with. -/
theorem Table.errorCount_eq {t u : Table} (keys : u.cells.keys = t.cells.keys) :
    u.errorCount = t.cells.entries.countP fun e => (u.cells.get? e.1).any Cell.showsError := by
  have byKey : u.errorCount =
      u.cells.keys.countP fun key => (u.cells.get? key).any Cell.showsError := by
    unfold errorCount Roster.keys Entries.keys
    rw [List.countP_map]
    refine List.countP_congr fun e member => ?_
    rw [Function.comp_apply, u.cells.get?_of_mem member, Option.any_some]
  rw [byKey, keys, Roster.keys, Entries.keys, List.countP_map]
  rfl

/-- The errors that show are those of the keys, and those of the formulas whose key an earlier entry
has. -/
theorem Table.Pass.errorCount_eq (pass : t.Pass settings r w v order)
    (keys : r.table.cells.keys = t.cells.keys) :
    r.table.errorCount = v.failures + t.repeatCount := by
  rw [Table.errorCount_eq keys, pass.failures_eq, Table.repeatCount,
    List.countP_eq_countP_filter_add _ _ (leads t.cells.entries)]
  simp only [List.countP_filter]
  congr 1
  · refine List.countP_congr fun e member => ?_
    rw [pass.showsError_eq member]
    cases leads t.cells.entries e <;> simp
  · refine List.countP_congr fun e member => ?_
    rw [pass.showsError_eq member]
    cases leads t.cells.entries e <;> simp

/-- The last note of a recalculation is its summary. It tells how many entries there are and how many
of them have formulas, and of the errors that show it tells all but those of the formulas whose key
an earlier entry has. So it tells the number of errors that show where and only where no formula
has such a key, and there are never more errors than formulas. -/
theorem summary_leaves_out_repeated_keys (h : t.recalculate settings = .ok r) :
    ∃ errors, r.notes.getLast? = some (.summary t.cells.size t.formulaCount errors) ∧
      errors + t.repeatCount = r.table.errorCount ∧
      (errors = r.table.errorCount ↔ ∀ e ∈ t.cells.entries, e.2.formula?.isSome →
        first? t.cells.entries (upper e.1) = some e) ∧
      errors ≤ t.formulaCount ∧ r.table.errorCount ≤ t.formulaCount := by
  have inputs := Table.sameInputs_of_recalculate h
  obtain ⟨w, v, errors, order, wired, evaluated, pass⟩ := Table.exists_steps h
  have inv := pass.wired
  obtain ⟨_, v', _, _, evaluated', _, _⟩ := inv.ready.first_pass inv.unreadFail
  cases evaluated.symm.trans evaluated'
  have result := Table.recalculate_of_steps wired evaluated pass.cells
  have notes := congrArg Recalculated.notes (Except.ok.inj (h.symm.trans result))
  have count := pass.errorCount_eq inputs.keys
  have most : r.table.errorCount ≤ t.formulaCount := by
    rw [Table.errorCount_eq inputs.keys]
    refine List.countP_mono_left fun e member shows => ?_
    obtain ⟨c, final, found⟩ := Roster.get?_traverse pass.cells (t.cells.get?_of_mem member)
    rw [found, Option.any_some, Cell.showsError, Wiring.formula?_of_finalCell final,
      Bool.and_eq_true] at shows
    exact shows.1
  refine ⟨v.failures, notes ▸ List.getLast?_concat, count.symm, ?_, ?_, most⟩
  · rw [← Table.repeatCount_eq_zero_iff, count]
    omega
  · omega

/-- A table with two formulas under one key. -/
def Table.doubled : Table where
  rows := 1
  columns := .ofEntries [("A", ⟨"", []⟩)]
  cells := .ofEntries [("A1", ⟨none, some "=1", none⟩), ("a1", ⟨none, some "=2", none⟩)]

theorem Table.exists_doubled : ∃ r, Table.doubled.recalculate .usual = .ok r ∧
    r.notes.getLast? = some (.summary 2 2 0) ∧ r.table.errorCount = 1 := by
  have told : ((Table.doubled.recalculate .usual).toOption.map fun r =>
      (r.notes.getLast?, r.table.errorCount)) = some (some (.summary 2 2 0), 1) := by
    decide +kernel
  obtain ⟨r, result, both⟩ := Option.map_eq_some_iff.1 told
  obtain ⟨last, count⟩ := Prod.mk.inj both
  exact ⟨r, eq_ok_of_toOption result, last, count⟩

theorem summary_leaves_out_repeated_keys_of_doubled :
    ∃ r errors, Table.doubled.recalculate .usual = .ok r ∧
      r.notes.getLast? = some (.summary 2 2 errors) ∧
      errors + Table.doubled.repeatCount = r.table.errorCount ∧ Table.doubled.repeatCount = 1 := by
  obtain ⟨r, result, _, _⟩ := Table.exists_doubled
  obtain ⟨errors, last, count, _⟩ := summary_leaves_out_repeated_keys result
  exact ⟨r, errors, result, last, count, by decide +kernel⟩

/-- The summary tells of no error where one shows. -/
theorem summary_misses_error_of_doubled :
    ∃ r errors, Table.doubled.recalculate .usual = .ok r ∧
      r.notes.getLast? = some (.summary 2 2 errors) ∧ errors ≠ r.table.errorCount := by
  obtain ⟨r, result, last, count⟩ := Table.exists_doubled
  exact ⟨r, 0, result, last, by rw [count]; decide⟩

end Worksheet
