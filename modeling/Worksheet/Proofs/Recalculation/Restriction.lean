-- What a cell comes to hangs on the cells that it reads, directly or through others, and on nothing
-- else, loops and all.
import Worksheet.Proofs.Recalculation.Showing
import Worksheet.Proofs.Wiring.Restriction

namespace Worksheet

open Worksheet.Text (upper)

/-- The table with the entries under the keys that are kept. -/
def Table.restrict (keep : String → Bool) (t : Table) : Table :=
  { t with cells := ⟨keptEntries keep t.cells.entries, Entries.nodup_keys_filter t.cells.nodup _⟩ }

variable {settings : Settings} {t : Table} {r : Recalculated} {keep : String → Bool}

/-- Where the formulas at kept keys name kept keys only, what is read at kept keys comes out the
same with and without the others. -/
theorem Wiring.Within.settled {w u v v' : Wiring} {bounds : Bounds}
    {entries more : List (String × Cell)} (rel : w.Within keep u)
    (invW : w.Complete settings.limit bounds entries)
    (invU : u.Complete settings.limit bounds more)
    (closed : ∀ e ∈ entries, keep (upper e.1) = true →
      ∀ s ∈ e.2.references settings.limit, keep s = true)
    {order order' : List String} (isOrder : w.graph.IsOrder order)
    (isOrder' : u.graph.IsOrder order') (settled : w.Settled order v)
    (settled' : u.Settled order' v') (k : String) (keeps : keep k = true) :
    v.slots.get? k = v'.slots.get? k := by
  apply Settled.agree invW.ready invU.ready (fun k hk => (rel.slots k hk).symm) _ isOrder isOrder'
    settled settled' k keeps
  intro k s f hk found due q hq
  obtain ⟨e, first, named⟩ := invW.refers_of_due found due hq
  exact closed e (mem_of_first? first) (upper_of_first? first ▸ hk) q named

/-- A table with some entries left out, but none that the others name, is recalculated, and every
entry of it shows what it shows among all. -/
theorem restriction_recalculates (h : t.recalculate settings = .ok r)
    (closed : ∀ e ∈ t.cells.entries, keep (upper e.1) = true →
      ∀ s ∈ e.2.references settings.limit, keep s = true) :
    ∃ r', (t.restrict keep).recalculate settings = .ok r' ∧
      ∀ e ∈ (t.restrict keep).cells.entries, ∃ c,
        r'.table.cells.get? e.1 = some c ∧ r.table.cells.get? e.1 = some c := by
  obtain ⟨w, v, order, wired, pass⟩ := Table.exists_pass h
  obtain ⟨u, wired', rel⟩ := Wiring.exists_within closed wired
  have inv := Wiring.complete_of_run wired'
  obtain ⟨order', ⟨v', errors⟩, isOrder', ran, settled'⟩ := inv.ready.evaluate
  have same : ∀ e ∈ (t.restrict keep).cells.entries,
      v'.finalCell e.1 e.2 = v.finalCell e.1 e.2 := by
    intro e member
    have slots := rel.settled pass.wired inv closed pass.isOrder isOrder' pass.settled settled'
      (upper e.1) (List.mem_filter.1 member).2
    unfold Wiring.finalCell
    rw [slots]
  have shown : ∀ e ∈ (t.restrict keep).cells.entries, ∃ c,
      v.finalCell e.1 e.2 = .ok c ∧ r.table.cells.get? e.1 = some c := fun e member =>
    Roster.get?_traverse pass.cells (t.cells.get?_of_mem (List.mem_filter.1 member).1)
  have taken : ∀ e ∈ (t.restrict keep).cells.entries, ∃ c, v'.finalCell e.1 e.2 = .ok c := by
    intro e member
    obtain ⟨c, final, _⟩ := shown e member
    exact ⟨c, (same e member).trans final⟩
  obtain ⟨cells, written⟩ := Roster.exists_traverse taken
  refine ⟨_, Table.recalculate_of_steps wired' ran written, fun e member => ?_⟩
  obtain ⟨c, final, found⟩ := shown e member
  obtain ⟨c', final', found'⟩ := Roster.get?_traverse written (Roster.get?_of_mem _ member)
  rw [same e member, final, Except.ok.injEq] at final'
  exact ⟨c, final' ▸ found', found⟩

theorem restriction_recalculates_of_faulty :
    ∃ r r' c, Table.faulty.recalculate .usual = .ok r ∧
      (Table.faulty.restrict (· = "A1")).recalculate .usual = .ok r' ∧
      r'.table.cells.get? "A1" = some c ∧ r.table.cells.get? "A1" = some c := by
  obtain ⟨r, h⟩ := Table.faulty_returns
  have closed : ∀ e ∈ Table.faulty.cells.entries, decide (upper e.1 = "A1") = true →
      ∀ s ∈ e.2.references Settings.usual.limit, decide (s = "A1") = true := by decide +kernel
  have member : ("A1", ⟨none, some "=A1", none⟩) ∈
      (Table.faulty.restrict (· = "A1")).cells.entries := by decide +kernel
  obtain ⟨r', h', same⟩ := @restriction_recalculates _ _ _ (· = "A1") h closed
  obtain ⟨c, found', found⟩ := same _ member
  exact ⟨r, r', c, h, h', found', found⟩

end Worksheet
