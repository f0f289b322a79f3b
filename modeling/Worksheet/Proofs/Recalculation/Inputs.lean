-- What is read of a table. Of a cell with a formula only the formula is: what it came to before
-- leaves no trace. So a table that was recalculated comes out as it went in.
import Worksheet.Proofs.Rosters
import Worksheet.Proofs.Runs
import Worksheet.Recalculation

namespace Worksheet

open Worksheet.Text (upper)

/-! ## What is left out -/

/-- A cell without what its formula came to. -/
def Cell.bare (c : Cell) : Cell := if c.formula?.isSome then ⟨none, c.formula, none⟩ else c

def Slot.bare (s : Slot) : Slot := { s with cell := s.cell.bare }

def Table.bare (t : Table) : Table := { t with cells := t.cells.map Cell.bare }

def Wiring.bare (w : Wiring) : Wiring := { w with slots := w.slots.map Slot.bare }

theorem Cell.formula_bare (c : Cell) : c.bare.formula = c.formula := by
  unfold bare
  split <;> rfl

@[simp]
theorem Cell.formula?_bare (c : Cell) : c.bare.formula? = c.formula? := by
  rw [formula?, formula_bare, formula?]

theorem Cell.bare_of_literal {c : Cell} (h : c.formula? = none) : c.bare = c := by
  simp [bare, h]

namespace Wiring

@[simp]
theorem graph_bare (w : Wiring) : w.bare.graph = w.graph := rfl

theorem get?_bare (w : Wiring) (key : String) :
    w.bare.slots.get? key = (w.slots.get? key).map Slot.bare := Roster.get?_map _ _ _

/-! ## Wiring -/

theorem setOutcome_bare (w : Wiring) (key : String) (o : Outcome) :
    w.bare.setOutcome key o = (w.setOutcome key o).bare := by
  have slots : (w.slots.map Slot.bare).modify key (fun s => { s with outcome := some o }) =
      (w.slots.modify key fun s => { s with outcome := some o }).map Slot.bare := by
    apply Roster.modify_map
    exact fun _ => rfl
  unfold setOutcome bare
  rw [slots]

theorem flags_bare (path : List String) (w : Wiring) :
    path.foldl flag w.bare = (path.foldl flag w).bare :=
  List.foldl_hom bare fun v key => setOutcome_bare v key _

theorem refer_bare (bounds : Bounds) (key : String) (w : Wiring) (reference : String) :
    refer bounds key w.bare reference = (refer bounds key w reference).map bare := by
  unfold refer
  rw [graph_bare]
  rcases w.graph.cyclePath reference key with fault | _ | path
  · rfl
  · rcases bounds.contains reference with fault | _ | _
    · rfl
    · exact congrArg (fun v : Wiring => Except.ok (v.note _)) (setOutcome_bare w key _)
    · simp only [bind, Except.bind, if_true]
      rcases (w.graph.ensure reference).addEdge reference key with fault | g <;> rfl
  · exact congrArg (fun v : Wiring => Except.ok (v.note _)) (flags_bare path w)

theorem enterFormula_bare (settings : Settings) (bounds : Bounds) (w : Wiring)
    (key entry : String) (cell : Cell) (text : String) :
    enterFormula settings bounds w.bare key entry cell.bare text =
      (enterFormula settings bounds w key entry cell text).map bare := by
  have put : ∀ s : Slot, w.bare.slots.put key s.bare = (w.slots.put key s).map Slot.bare :=
    Roster.put_map Slot.bare w.slots key
  unfold enterFormula
  rcases Formula.parse text settings.limit with cause | f
  · exact congrArg (fun slots => Except.ok (Wiring.mk w.graph slots _))
      (put ⟨entry, cell, none, some (.error .formula)⟩)
  · have run := foldlM_map_of_step (n := id) (fun v s => refer_bare bounds key v s)
      (f.cells.map fun a => upper a.text)
    rw [List.map_id] at run
    have slots := put ⟨entry, cell, some f, none⟩
    simp only [Slot.bare] at slots
    simp only [slots]
    rw [← run]
    cases settings.outlines <;> rfl

theorem enter_bare (settings : Settings) (bounds : Bounds) (w : Wiring) (e : String × Cell) :
    enter settings bounds w.bare (e.1, e.2.bare) = (enter settings bounds w e).map bare := by
  have present : w.bare.slots.contains (upper e.1) = w.slots.contains (upper e.1) :=
    Roster.contains_map _ _ _
  unfold enter
  simp only [present, Cell.formula?_bare]
  split
  · rfl
  · rcases written : e.2.formula? with _ | text
    · have slots := Roster.put_map Slot.bare w.slots (upper e.1) ⟨e.1, e.2, none, none⟩
      exact congrArg (fun slots => Except.ok (Wiring.mk _ slots w.notes)) slots
    · exact enterFormula_bare settings bounds { w with graph := w.graph.ensure (upper e.1) }
        (upper e.1) e.1 e.2 text

theorem ofCells_bare (settings : Settings) (bounds : Bounds) (cells : Roster Cell) :
    ofCells settings bounds (cells.map Cell.bare) =
      (ofCells settings bounds cells).map bare :=
  foldlM_map_of_step (fun w e => enter_bare settings bounds w e) cells.entries empty

/-! ## Evaluating -/

theorem slotValue_bare (s : Slot) : slotValue s.bare = slotValue s := by
  have formula : s.bare.isFormula = s.isFormula := by simp [Slot.isFormula, Slot.bare]
  unfold slotValue
  rw [formula]
  rcases written : s.cell.formula? with _ | text
  · simp only [Slot.bare, Cell.bare_of_literal written]
  · simp only [Slot.isFormula, written, Option.isSome_some, if_true]
    rfl

theorem read_bare (w : Wiring) : w.bare.read = w.read := by
  funext key
  unfold read
  rw [graph_bare, get?_bare, Option.map_map]
  simp only [Function.comp_def, slotValue_bare]

def Progress.bare (p : Progress) : Progress := (p.1.bare, p.2)

theorem evaluateFormula_bare (p : Progress) (key : String) (f : Formula) :
    evaluateFormula p.bare key f = (evaluateFormula p key f).map Progress.bare := by
  unfold evaluateFormula
  simp only [Progress.bare, read_bare]
  rcases f.outcome p.1.read with fault | x
  · rfl
  · simp only [bind, Except.bind, setOutcome_bare]
    cases x <;> rfl

theorem evaluateKey_bare (p : Progress) (key : String) :
    evaluateKey p.bare key = (evaluateKey p key).map Progress.bare := by
  unfold evaluateKey
  simp only [Progress.bare, get?_bare]
  rcases p.1.slots.get? key with _ | s
  · rfl
  · have formula : s.bare.isFormula = s.isFormula := by simp [Slot.isFormula, Slot.bare]
    simp only [Option.map_some, formula]
    split
    · rfl
    · have tree : s.bare.tree = s.tree := rfl
      have outcome : s.bare.outcome = s.outcome := rfl
      rw [tree, outcome]
      split
      · rfl
      · rfl
      · exact evaluateFormula_bare p key _

theorem evaluate_bare (w : Wiring) : w.bare.evaluate = w.evaluate.map Progress.bare := by
  unfold evaluate
  rw [graph_bare]
  rcases w.graph.order with fault | order
  · rfl
  · have run := foldlM_map_of_step (n := id) evaluateKey_bare order (w, 0)
    rw [List.map_id] at run
    exact run

/-! ## Writing back -/

theorem finalCell_bare (w : Wiring) (entry : String) (c : Cell) :
    w.bare.finalCell entry c.bare = w.finalCell entry c := by
  unfold finalCell
  rw [Cell.formula?_bare, get?_bare]
  rcases written : c.formula? with _ | text
  · rw [Cell.bare_of_literal written]
  · rcases w.slots.get? (upper entry) with _ | s <;> rfl

/-- What is sent back keeps the formula, and a literal as it is. -/
theorem finalCell_input {w : Wiring} {entry : String} {cell c : Cell}
    (h : w.finalCell entry cell = .ok c) :
    c.formula = cell.formula ∧ (cell.formula? = none → c = cell) := by
  unfold finalCell at h
  rcases written : cell.formula? with _ | text <;> rw [written] at h
  · cases h
    exact ⟨rfl, fun _ => rfl⟩
  · have formula : cell.formula = some text := (Option.filter_eq_some_iff.1 written).1
    refine ⟨?_, fun none => by cases none⟩
    rw [formula]
    rcases found : w.slots.get? (upper entry) with _ | s <;> rw [found] at h
    · cases h
    · simp only at h
      split at h
      · cases h
        rfl
      · unfold resultCell at h
        split at h
        · cases h
          rfl
        · obtain ⟨shown, _, h⟩ := exists_of_bind h
          cases h
          rfl
        · cases h

end Wiring

/-! ## Tables -/

theorem Table.recalculate_bare (settings : Settings) (t : Table) :
    t.bare.recalculate settings = t.recalculate settings := by
  have bounds : t.bare.bounds = t.bounds := rfl
  have count : t.bare.formulaCount = t.formulaCount := by
    simp [formulaCount, bare, Roster.map, List.countP_map, Function.comp_def]
  have size : t.bare.cells.size = t.cells.size := by simp [bare, Roster.size, Roster.map]
  have cells : t.bare.cells = t.cells.map Cell.bare := rfl
  unfold recalculate
  rw [bounds, count, size, cells, Wiring.ofCells_bare]
  rcases Wiring.ofCells settings t.bounds t.cells with fault | w
  · rfl
  · simp only [Except.map, bind, Except.bind, Wiring.evaluate_bare]
    rcases w.evaluate with fault | ⟨v, errors⟩
    · rfl
    · simp only [Wiring.Progress.bare]
      rw [Roster.traverse_map (fun entry c => v.finalCell_bare entry c)]
      rfl

/-- Two tables with the same inputs: rows, columns and keys are the same, and so are the formulas
and the literals under each key. -/
structure Table.SameInputs (t u : Table) : Prop where
  rows : t.rows = u.rows
  columns : t.columns = u.columns
  keys : t.cells.keys = u.cells.keys
  cells : ∀ key c d, t.cells.get? key = some c → u.cells.get? key = some d →
    c.formula = d.formula ∧ (c.formula? = none → c = d)

theorem Cell.bare_eq_of_input {c d : Cell} (formula : c.formula = d.formula)
    (literal : c.formula? = none → c = d) : c.bare = d.bare := by
  have same : c.formula? = d.formula? := by rw [formula?, formula, formula?]
  rcases written : c.formula? with _ | text
  · rw [literal written]
  · simp [bare, ← same, written, formula]

theorem Table.SameInputs.bare_eq {t u : Table} (same : t.SameInputs u) : t.bare = u.bare := by
  have cells : t.cells.map Cell.bare = u.cells.map Cell.bare := by
    refine Roster.map_eq_of_get? same.keys fun key c d found found' => ?_
    obtain ⟨formula, literal⟩ := same.cells key c d found found'
    exact Cell.bare_eq_of_input formula literal
  unfold bare
  rw [cells, same.rows, same.columns]

/-- A table that was recalculated has the inputs that it had before. -/
theorem Table.sameInputs_of_recalculate {settings : Settings} {t : Table} {r : Recalculated}
    (h : t.recalculate settings = .ok r) : r.table.SameInputs t := by
  unfold recalculate at h
  obtain ⟨w, _, h⟩ := exists_of_bind h
  obtain ⟨⟨v, errors⟩, _, h⟩ := exists_of_bind h
  obtain ⟨cells, written, h⟩ := exists_of_bind h
  cases h
  refine ⟨rfl, rfl, Roster.keys_traverse written, fun key c d found found' => ?_⟩
  obtain ⟨c', final, now⟩ := Roster.get?_traverse written found'
  cases found.symm.trans now
  obtain ⟨formula, literal⟩ := Wiring.finalCell_input final
  have same : c.formula? = d.formula? := by rw [Cell.formula?, formula, Cell.formula?]
  exact ⟨formula, fun none => literal (same ▸ none)⟩

/-- Tables with the same inputs are recalculated to the same end, or stopped by the same fault. So
a table that was recalculated, and is recalculated again, comes out as it is. -/
theorem recalculate_reads_inputs_only (settings : Settings) :
    (∀ t u : Table, t.SameInputs u → t.recalculate settings = u.recalculate settings) ∧
      ∀ (t : Table) (r : Recalculated), t.recalculate settings = .ok r →
        r.table.recalculate settings = .ok r := by
  have alike : ∀ t u : Table, t.SameInputs u →
      t.recalculate settings = u.recalculate settings := by
    intro t u same
    rw [← t.recalculate_bare, same.bare_eq, u.recalculate_bare]
  refine ⟨alike, fun t r h => ?_⟩
  rw [alike r.table t (Table.sameInputs_of_recalculate h), h]

/-- A table with a repeated key, a reference to no entry and a loop, and with one `value` and one
`error` in all cells with a formula. -/
def Table.worn (value error : Option String) : Table where
  rows := 2
  columns := .ofEntries [("A", ⟨"", []⟩), ("B", ⟨"", []⟩)]
  cells := ⟨[("A1", ⟨value, some "=B1+B2", error⟩), ("a1", ⟨value, some "=1/0", error⟩),
    ("B1", ⟨some "3", none, none⟩), ("A2", ⟨value, some "=A2", error⟩)], by simp [Entries.keys]⟩

theorem Table.worn_sameInputs (value error value' error' : Option String) :
    (Table.worn value error).SameInputs (Table.worn value' error') := by
  refine ⟨rfl, rfl, rfl, fun key c d found found' => ?_⟩
  simp only [Roster.get?, worn, Entries.get?] at found found'
  grind [Cell.formula?]

theorem recalculate_reads_inputs_only_of_worn :
    ∃ r, (Table.worn none none).recalculate .usual = .ok r ∧
      (Table.worn (some "9") (some "#NAME!")).recalculate .usual = .ok r ∧
      r.table.recalculate .usual = .ok r := by
  have returns : ((Table.worn none none).recalculate .usual).toOption.isSome = true := by
    decide +kernel
  obtain ⟨r, result⟩ := Option.isSome_iff_exists.1 returns
  have first := eq_ok_of_toOption result
  obtain ⟨alike, again⟩ := recalculate_reads_inputs_only .usual
  refine ⟨r, first, ?_, again _ r first⟩
  rw [alike _ (Table.worn none none) (Table.worn_sameInputs _ _ _ _), first]

end Worksheet
