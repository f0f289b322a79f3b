-- Tables without loops, where no key stands twice and every row number can be read. The order of
-- the entries makes no difference there, and a formula can make way for a literal that is seen as
-- the same.
import Worksheet.Proofs.Recalculation.Completion

open Relation

namespace Worksheet

open Worksheet.Text (upper)

/-! ## Tidy tables -/

/-- Tables where every key stands once, every row number can be read, and no formula leads back to
itself. -/
structure Table.Tidy (limit : Formula.Limit) (t : Table) : Prop where
  distinct : (t.cells.keys.map upper).Nodup
  short : ∀ e ∈ t.cells.entries, ∀ reference ∈ e.2.references limit,
    digitCount reference ≤ Fault.maxRowDigits
  acyclic : ∀ key, ¬ TransGen (Refers limit t.cells.entries) key key

variable {settings : Settings} {limit : Formula.Limit} {t u : Table} {r s : Recalculated}
  {w v w' v' : Wiring} {order order' : List String}

theorem first?_eq_some_iff {cells : Roster Cell} (distinct : (cells.keys.map upper).Nodup)
    {key : String} {e : String × Cell} :
    first? cells.entries key = some e ↔ e ∈ cells.entries ∧ upper e.1 = key := by
  constructor
  · exact fun first => ⟨mem_of_first? first, upper_of_first? first⟩
  · rintro ⟨member, rfl⟩
    obtain ⟨found, first⟩ := exists_first? member
    rw [Roster.keys, Entries.keys, List.map_map] at distinct
    have same := List.inj_on_of_nodup_map distinct (mem_of_first? first) member
      (upper_of_first? first)
    rw [first, same]

theorem Table.Tidy.first (tidy : t.Tidy limit) {e : String × Cell} (member : e ∈ t.cells.entries) :
    first? t.cells.entries (upper e.1) = some e :=
  (first?_eq_some_iff tidy.distinct).2 ⟨member, rfl⟩

theorem Table.Tidy.short_of_refers (tidy : t.Tidy limit) {key reference : String}
    (refers : Refers limit t.cells.entries key reference) :
    digitCount reference ≤ Fault.maxRowDigits := by
  obtain ⟨e, first, named⟩ := refers
  exact tidy.short e (mem_of_first? first) reference named

theorem Table.Tidy.exists_recalculated (tidy : t.Tidy settings.limit) :
    ∃ r, t.recalculate settings = .ok r := by
  rcases t.recalculate_ends_or_stops settings with
    returned | ⟨_, _, key, reference, refers, long, _⟩
  · exact returned
  · exact absurd long (Nat.not_lt.2 (tidy.short_of_refers refers))

theorem Table.Tidy.of_refers (tidy : t.Tidy limit) (distinct : (u.cells.keys.map upper).Nodup)
    (fewer : ∀ k reference, Refers limit u.cells.entries k reference →
      Refers limit t.cells.entries k reference) : u.Tidy limit where
  distinct := distinct
  short e member reference named :=
    tidy.short_of_refers (fewer (upper e.1) reference
      ⟨e, (first?_eq_some_iff distinct).2 ⟨member, rfl⟩, named⟩)
  acyclic key loop := tidy.acyclic key (TransGen.mono fewer _ _ loop)

/-! ## Two tables side by side -/

/-- Two tidy tables on one grid that have the same entries at some keys, and show the same to
formulas at all others that these name, come to the same at these keys. -/
theorem Table.Pass.slots_agree (pass : t.Pass settings r w v order)
    (pass' : u.Pass settings s w' v' order') (tidy : t.Tidy settings.limit)
    (tidy' : u.Tidy settings.limit) (grid : u.bounds = t.bounds) {K : String → Prop}
    (first : ∀ k, K k → first? u.cells.entries k = first? t.cells.entries k)
    (seen : ∀ k reference, K k → Refers settings.limit t.cells.entries k reference →
      K reference ∨ v.read reference = v'.read reference) :
    ∀ k, K k → v'.slots.get? k = v.slots.get? k := by
  have same : ∀ k, K k → w.slots.get? k = w'.slots.get? k := fun k hk =>
    (pass.wired.slot_congr (grid ▸ pass'.wired) tidy.acyclic tidy'.acyclic (first k hk)).symm
  have agree := Wiring.Settled.agree_of_seen pass.wired.ready pass'.wired.ready same pass.isOrder
    pass'.isOrder pass.settled pass'.settled fun k slot f hk found due reference named =>
      seen k reference hk (pass.wired.refers_of_due found due named)
  exact fun k hk => (agree k hk).symm

/-- What is sent back under a key hangs on the cell and on the slot of its key. -/
theorem Table.Pass.get?_congr (pass : t.Pass settings r w v order)
    (pass' : u.Pass settings s w' v' order') {key : String}
    (cell : u.cells.get? key = t.cells.get? key)
    (slot : key ∈ t.cells.keys → v'.slots.get? (upper key) = v.slots.get? (upper key)) :
    s.table.cells.get? key = r.table.cells.get? key := by
  rcases found : t.cells.get? key with _ | c
  · have absent : key ∉ r.table.cells.keys := by
      rw [Roster.keys_traverse pass.cells]
      exact (t.cells.get?_eq_none_iff key).1 found
    have absent' : key ∉ s.table.cells.keys := by
      rw [Roster.keys_traverse pass'.cells]
      exact (u.cells.get?_eq_none_iff key).1 (cell.trans found)
    rw [(Roster.get?_eq_none_iff _ key).2 absent, (Roster.get?_eq_none_iff _ key).2 absent']
  · have present : key ∈ t.cells.keys :=
      (t.cells.contains_iff key).1 (by rw [Roster.contains, found]; rfl)
    obtain ⟨b, final, shown⟩ := Roster.get?_traverse pass.cells found
    obtain ⟨b', final', shown'⟩ := Roster.get?_traverse pass'.cells (cell.trans found)
    unfold Wiring.finalCell at final final'
    rw [slot present, final, Except.ok.injEq] at final'
    rw [shown, shown', final']

/-! ## The order of the entries -/

theorem get?_perm {cells cells' : Roster Cell} (perm : cells'.entries.Perm cells.entries)
    (key : String) : cells'.get? key = cells.get? key := by
  apply Option.ext
  intro c
  rw [Roster.get?_eq_some_iff, Roster.get?_eq_some_iff, perm.mem_iff]

theorem first?_perm {cells cells' : Roster Cell} (distinct : (cells.keys.map upper).Nodup)
    (distinct' : (cells'.keys.map upper).Nodup) (perm : cells'.entries.Perm cells.entries)
    (key : String) : first? cells'.entries key = first? cells.entries key := by
  apply Option.ext
  intro e
  rw [first?_eq_some_iff distinct', first?_eq_some_iff distinct, perm.mem_iff]

/-- The order of the entries of a tidy table makes no difference: in any order the table is
recalculated, and every key shows the same. -/
theorem recalculate_in_any_order (tidy : t.Tidy settings.limit) (rows : u.rows = t.rows)
    (columns : u.columns = t.columns) (perm : u.cells.entries.Perm t.cells.entries) :
    ∃ r s, t.recalculate settings = .ok r ∧ u.recalculate settings = .ok s ∧
      ∀ key, s.table.cells.get? key = r.table.cells.get? key := by
  have distinct : (u.cells.keys.map upper).Nodup :=
    ((perm.map _).map upper).nodup_iff.2 tidy.distinct
  have first := first?_perm tidy.distinct distinct perm
  have tidy' : u.Tidy settings.limit := tidy.of_refers distinct fun k reference refers => by
    rwa [Refers, first k] at refers
  obtain ⟨r, result⟩ := tidy.exists_recalculated
  obtain ⟨s, result'⟩ := tidy'.exists_recalculated
  obtain ⟨w, v, order, _, pass⟩ := Table.exists_pass result
  obtain ⟨w', v', order', _, pass'⟩ := Table.exists_pass result'
  have grid : u.bounds = t.bounds := by rw [Table.bounds, Table.bounds, rows, columns]
  have slots := pass.slots_agree pass' tidy tidy' grid (fun k (_ : True) => first k)
    fun _ _ _ _ => Or.inl trivial
  exact ⟨r, s, result, result', fun key =>
    pass.get?_congr pass' (get?_perm perm key) fun _ => slots (upper key) trivial⟩

/-- A formula that names the next entry, which names a literal and a key off the grid. -/
def Table.chain : Table where
  rows := 2
  columns := .ofEntries [("A", ⟨"", []⟩), ("B", ⟨"", []⟩)]
  cells := .ofEntries [("A1", ⟨none, some "=B1*2+A2", none⟩), ("b1", ⟨none, some "=A2+C9", none⟩),
    ("A2", ⟨some "3", none, none⟩)]

def Table.chainBack : Table :=
  { Table.chain with cells := .ofEntries Table.chain.cells.entries.reverse }

theorem Table.tidy_chain : Table.chain.Tidy Settings.usual.limit where
  distinct := by decide +kernel
  short := by decide +kernel
  acyclic := by
    apply Wiring.acyclic_of_rank fun key => if key = "A1" then 2 else if key = "B1" then 1 else 0
    decide +kernel

theorem recalculate_in_any_order_of_chain :
    ∃ r s, Table.chain.recalculate .usual = .ok r ∧ Table.chainBack.recalculate .usual = .ok s ∧
      ∀ key, s.table.cells.get? key = r.table.cells.get? key := by
  have perm : Table.chainBack.cells.entries.Perm Table.chain.cells.entries := by decide +kernel
  exact recalculate_in_any_order Table.tidy_chain rfl rfl perm

/-! ## A literal in place of a formula -/

/-- The table with another cell under a key. -/
def Table.replace (t : Table) (key : String) (c : Cell) : Table :=
  { t with cells := t.cells.put key c }

/-- What formulas see of a key of the table once all of it is evaluated. -/
def Table.seen (settings : Settings) (t : Table) (key : String) : Except Fault Value := do
  let wiring ← Wiring.ofCells settings t.bounds t.cells
  let (wiring, _) ← wiring.evaluate
  wiring.read key

/-- A cell that is sent back for a formula is seen as `x`: as zero where it shows an error, and
else as the value that it shows. -/
def Cell.SeenAs (c : Cell) (x : Value) : Prop :=
  c.error ≠ none ∧ x = .zero ∨ c.error = none ∧ ∃ s, c.value = some s ∧ x.display = .ok s

theorem seenAs_of_resultCell {text key : String} {o : Outcome} {c : Cell} {s : Slot}
    (outcome : s.outcome = some o) (h : Wiring.resultCell text key (some o) = .ok c) :
    c.SeenAs (Wiring.slotValue s) := by
  unfold Wiring.slotValue
  rw [outcome]
  rcases o with code | x
  · cases h
    exact Or.inl ⟨Option.some_ne_none _, rfl⟩
  · obtain ⟨shown, displayed, h⟩ := exists_of_bind h
    cases h
    exact Or.inr ⟨rfl, shown, rfl, displayed⟩

theorem Table.keys_replace {e : String × Cell} (member : e ∈ t.cells.entries) (c : Cell) :
    (t.replace e.1 c).cells.keys = t.cells.keys := by
  rw [replace, Roster.keys_put, if_pos]
  exact List.mem_map_of_mem member

theorem Table.first?_replace (distinct : (t.cells.keys.map upper).Nodup) {e : String × Cell}
    (member : e ∈ t.cells.entries) (c : Cell) (key : String) :
    first? (t.replace e.1 c).cells.entries key =
      if key = upper e.1 then some (e.1, c) else first? t.cells.entries key := by
  have distinct' : ((t.replace e.1 c).cells.keys.map upper).Nodup := by
    rwa [Table.keys_replace member]
  split
  · rename_i here
    rw [first?_eq_some_iff distinct', here]
    exact ⟨Roster.mem_of_get? (Roster.get?_put_self ..), rfl⟩
  · rename_i apart
    apply Option.ext
    rintro ⟨k, c'⟩
    rw [first?_eq_some_iff distinct', first?_eq_some_iff distinct]
    refine and_congr_left fun same => ?_
    have other : k ≠ e.1 := fun h => apart (same ▸ congrArg upper h)
    rw [← Roster.get?_eq_some_iff, ← Roster.get?_eq_some_iff, replace,
      Roster.get?_put_of_ne _ other]

/-- A literal names nothing, and all other formulas name what they named. -/
theorem Table.Tidy.replace (tidy : t.Tidy limit) {e : String × Cell}
    (member : e ∈ t.cells.entries) {c : Cell} (literal : c.formula? = none) :
    (t.replace e.1 c).Tidy limit := by
  apply tidy.of_refers
  · rw [Table.keys_replace member]
    exact tidy.distinct
  · rintro k reference ⟨x, first, named⟩
    rw [Table.first?_replace tidy.distinct member] at first
    split at first
    · cases first
      obtain ⟨text, _, written, _⟩ := Cell.mem_references_iff.1 named
      cases literal.symm.trans written
    · exact ⟨x, first, named⟩

theorem Table.Pass.read_slot (pass : t.Pass settings r w v order) {e : String × Cell}
    {key : String} (first : first? t.cells.entries key = some e) {s : Slot}
    (slot : v.slots.get? key = some s) : v.read key = .ok (Wiring.slotValue s) := by
  have node : v.graph.contains key = true := by
    rw [pass.settled.graph]
    exact (w.graph.mem_keys_iff key).1 (pass.wired.nodes key e first)
  rw [Wiring.read, if_pos node, slot]
  rfl

theorem Table.Pass.read_literal (pass : t.Pass settings r w v order) {e : String × Cell}
    {key : String} (first : first? t.cells.entries key = some e)
    (literal : e.2.formula? = none) : v.read key = .ok (Wiring.literalValue e.2) := by
  rw [pass.read_slot first (pass.settled.literal_slot pass.wired first literal)]
  simp [Wiring.slotValue, Slot.isFormula, literal]

/-- Nothing of a formula can be told through a reference but the value that is seen: a literal that
is seen as the same, or a blank cell where zero is seen, leaves every other key as it was. -/
theorem literal_stands_in (tidy : t.Tidy settings.limit) {e : String × Cell}
    (member : e ∈ t.cells.entries) (formula : e.2.formula? ≠ none) :
    ∃ r x shown, t.recalculate settings = .ok r ∧ t.seen settings (upper e.1) = .ok x ∧
      r.table.cells.get? e.1 = some shown ∧ shown.SeenAs x ∧
      ∀ c : Cell, c.formula? = none → Wiring.literalValue c = x →
        ∃ s, (t.replace e.1 c).recalculate settings = .ok s ∧
          ∀ key ≠ e.1, s.table.cells.get? key = r.table.cells.get? key := by
  obtain ⟨text, written⟩ := Option.ne_none_iff_exists'.1 formula
  obtain ⟨r, result⟩ := tidy.exists_recalculated
  obtain ⟨w, v, _, order, wired, evaluated, pass⟩ := Table.exists_steps result
  have first := tidy.first member
  obtain ⟨slot, o, shown, held, outcome, _, back, final⟩ := pass.exists_slot first written
  have read := pass.read_slot first held
  have seen : t.seen settings (upper e.1) = .ok (Wiring.slotValue slot) := by
    simp only [Table.seen, wired, evaluated, bind, Except.bind, read]
  refine ⟨r, _, shown, result, seen, back, seenAs_of_resultCell outcome final, ?_⟩
  intro c literal same
  have tidy' := tidy.replace member literal
  obtain ⟨s, result'⟩ := tidy'.exists_recalculated
  obtain ⟨w', v', order', _, pass'⟩ := Table.exists_pass result'
  have firsts := Table.first?_replace tidy.distinct member c
  have read' : v'.read (upper e.1) = .ok (Wiring.slotValue slot) := by
    rw [pass'.read_literal ((firsts _).trans (if_pos rfl)) literal, same]
  -- All keys but the replaced one have their entries still, and see the same there.
  have slots := pass.slots_agree pass' tidy tidy' rfl (K := (· ≠ upper e.1))
    (fun k apart => (firsts k).trans (if_neg apart))
    (fun _ reference _ _ => (Decidable.em (reference = upper e.1)).symm.imp_right fun here => by
      rw [here, read, read'])
  refine ⟨s, result', fun key other => pass.get?_congr pass' ?_ fun present => ?_⟩
  · exact Roster.get?_put_of_ne _ other c
  · refine slots (upper key) fun clash => other ?_
    exact List.inj_on_of_nodup_map tidy.distinct present (List.mem_map_of_mem member) clash

/-- A blank cell and a zero can each stand for a formula that names a key off the grid. -/
theorem literal_stands_in_of_chain :
    ∃ r s u, Table.chain.recalculate .usual = .ok r ∧
      (Table.chain.replace "b1" ⟨none, none, none⟩).recalculate .usual = .ok s ∧
      (Table.chain.replace "b1" ⟨some "0", none, none⟩).recalculate .usual = .ok u ∧
      ∀ key ≠ "b1", s.table.cells.get? key = r.table.cells.get? key ∧
        u.table.cells.get? key = r.table.cells.get? key := by
  have member : ("b1", ⟨none, some "=A2+C9", none⟩) ∈ Table.chain.cells.entries := by
    decide +kernel
  have refused : ((Table.chain.recalculate .usual).toOption.bind fun r =>
      (r.table.cells.get? "b1").bind fun c => c.error).isSome = true := by decide +kernel
  obtain ⟨r, x, shown, result, _, back, seen, stands⟩ :=
    literal_stands_in Table.tidy_chain member (by decide +kernel)
  rw [result, Except.toOption, Option.bind_some, back, Option.bind_some] at refused
  rcases seen with ⟨_, rfl⟩ | ⟨clear, _⟩
  · obtain ⟨s, blank, same⟩ := stands ⟨none, none, none⟩ rfl rfl
    obtain ⟨u, zero, same'⟩ := stands ⟨some "0", none, none⟩ rfl rfl
    exact ⟨r, s, u, result, blank, zero, fun key other => ⟨same key other, same' key other⟩⟩
  · rw [clear] at refused
    cases refused

end Worksheet
