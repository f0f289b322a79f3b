-- What a recalculated table shows. An entry whose key an earlier one has shows a bad reference.
-- Each of the others shows the error of its text, the flag of its key, or what its formula comes
-- to. So every error tells its cause, and evaluation by itself brings no bad reference.
import Worksheet.Proofs.Recalculation.Settling
import Worksheet.Proofs.Wiring.Loops

open Relation

namespace Worksheet

open Worksheet.Formula (Shown ownCodes)
open Worksheet.Text (upper)

/-! ## What went before -/

/-- How a table was recalculated: `w` is the table wired, and `v` is `w` evaluated. -/
structure Table.Pass (settings : Settings) (t : Table) (r : Recalculated) (w v : Wiring)
    (order : List String) : Prop where
  wired : w.Complete settings.limit t.bounds t.cells.entries
  isOrder : w.graph.IsOrder order
  settled : w.Settled order v
  cells : t.cells.traverse v.finalCell = .ok r.table.cells
  flagged : r.notes.flatMap Note.flagged = w.flagged

theorem Table.exists_steps {settings : Settings} {t : Table} {r : Recalculated}
    (h : t.recalculate settings = .ok r) :
    ∃ w v errors order, Wiring.ofCells settings t.bounds t.cells = .ok w ∧
      w.evaluate = .ok (v, errors) ∧ t.Pass settings r w v order := by
  unfold recalculate at h
  obtain ⟨w, wired, h⟩ := exists_of_bind h
  obtain ⟨⟨v, errors⟩, evaluated, h⟩ := exists_of_bind h
  obtain ⟨cells, written, h⟩ := exists_of_bind h
  cases h
  have inv := Wiring.complete_of_run wired
  obtain ⟨order, p, isOrder, ran, settled⟩ := inv.ready.evaluate
  rw [evaluated] at ran
  cases ran
  refine ⟨w, v, errors, order, wired, evaluated, inv, isOrder, settled, written, ?_⟩
  rw [← settled.flagged, Wiring.flagged, List.flatMap_append]
  simp [Note.flagged]

theorem Table.exists_pass {settings : Settings} {t : Table} {r : Recalculated}
    (h : t.recalculate settings = .ok r) :
    ∃ w v order, Wiring.ofCells settings t.bounds t.cells = .ok w ∧
      t.Pass settings r w v order := by
  obtain ⟨w, v, _, order, wired, _, pass⟩ := Table.exists_steps h
  exact ⟨w, v, order, wired, pass⟩

theorem Table.recalculate_of_steps {settings : Settings} {t : Table} {w v : Wiring} {errors : Nat}
    {cells : Roster Cell} (wired : Wiring.ofCells settings t.bounds t.cells = .ok w)
    (evaluated : w.evaluate = .ok (v, errors))
    (written : t.cells.traverse v.finalCell = .ok cells) :
    t.recalculate settings = .ok ⟨{ t with cells },
      v.notes ++ [.summary t.cells.size t.formulaCount errors]⟩ := by
  simp only [recalculate, wired, evaluated, written, bind, Except.bind]

/-! ## How formulas end -/

/-- The outcomes of a formula `text` at a key. -/
inductive Ends (limit : Formula.Limit) (w v : Wiring) (key text : String) : Outcome → Prop
  /-- The text cannot be read. -/
  | unreadable {cause : ParseError} (failed : Formula.parse text limit = .error cause) :
    Ends limit w v key text (.error .formula)
  /-- A bad reference is flagged at the key. -/
  | flagged {f : Formula} (parsed : Formula.parse text limit = .ok f) (flag : key ∈ w.flagged) :
    Ends limit w v key text (.error .reference)
  /-- The formula is evaluated. -/
  | settled {f : Formula} {x : Value} (parsed : Formula.parse text limit = .ok f)
    (clear : key ∉ w.flagged) (came : f.outcome v.read = .ok x) (shown : Shown x) :
    Ends limit w v key text (verdict x)

variable {settings : Settings} {t : Table} {r : Recalculated} {w v : Wiring} {order : List String}

/-- The formula of a first entry ends, and its slot holds how. -/
theorem Wiring.Settled.ends {limit : Formula.Limit} {bounds : Bounds}
    {entries : List (String × Cell)}
    (settled : w.Settled order v) (inv : w.Complete limit bounds entries)
    (isOrder : w.graph.IsOrder order) {key : String} {e : String × Cell}
    (first : first? entries key = some e) {text : String} (written : e.2.formula? = some text) :
    ∃ s o, v.slots.get? key = some s ∧ s.entry = e.1 ∧ s.outcome = some o ∧
      Ends limit w v key text o := by
  have slot := inv.slots key
  rw [first, Option.map_some] at slot
  rcases parsed : Formula.parse text limit with cause | f
  · have start := Slot.start_of_error written parsed
    have clear := inv.not_flagged first (congrArg Slot.tree start)
    rw [if_neg clear, start] at slot
    refine ⟨_, _, (settled.kept key ?_).trans slot, rfl, rfl, .unreadable parsed⟩
    intro s found
    cases slot.symm.trans found
    rfl
  · have start := Slot.start_of_ok written parsed
    by_cases flag : key ∈ w.flagged
    · rw [if_pos flag, start] at slot
      refine ⟨_, _, (settled.kept key ?_).trans slot, rfl, rfl, .flagged parsed flag⟩
      intro s found
      cases slot.symm.trans found
      rfl
    · rw [if_neg flag, start] at slot
      have node := isOrder.perm.mem_iff.2 (inv.ready.slots key _ slot).1
      obtain ⟨x, came, shown, now⟩ := settled.settled key node _ f slot rfl
      exact ⟨_, _, now, rfl, rfl, .settled parsed flag came shown⟩

theorem Wiring.Settled.literal_slot {limit : Formula.Limit} {bounds : Bounds}
    {entries : List (String × Cell)} (settled : w.Settled order v)
    (inv : w.Complete limit bounds entries) {key : String} {e : String × Cell}
    (first : first? entries key = some e) (literal : e.2.formula? = none) :
    v.slots.get? key = some ⟨e.1, e.2, none, none⟩ := by
  have start : Slot.start limit e = _ := Slot.start_of_literal literal
  have slot := inv.slots key
  rw [first, Option.map_some, if_neg (inv.not_flagged first (congrArg Slot.tree start)),
    start] at slot
  refine (settled.kept key ?_).trans slot
  intro s found
  cases slot.symm.trans found
  rfl

/-- The slot of a key goes by the first entry that has it. -/
theorem Wiring.Settled.entry {limit : Formula.Limit} {bounds : Bounds}
    {entries : List (String × Cell)}
    (settled : w.Settled order v) (inv : w.Complete limit bounds entries)
    (isOrder : w.graph.IsOrder order) {key : String} {e : String × Cell}
    (first : first? entries key = some e) : ∃ s, v.slots.get? key = some s ∧ s.entry = e.1 := by
  rcases written : e.2.formula? with _ | text
  · exact ⟨_, settled.literal_slot inv first written, rfl⟩
  · obtain ⟨s, _, slot, entry, _, _⟩ := settled.ends inv isOrder first written
    exact ⟨s, slot, entry⟩

/-- The slot of a first entry with a formula holds how the formula ends, and this is sent back. -/
theorem Table.Pass.exists_slot (pass : t.Pass settings r w v order) {e : String × Cell}
    (first : first? t.cells.entries (upper e.1) = some e) {text : String}
    (written : e.2.formula? = some text) :
    ∃ s o c, v.slots.get? (upper e.1) = some s ∧ s.outcome = some o ∧
      Ends settings.limit w v (upper e.1) text o ∧ r.table.cells.get? e.1 = some c ∧
      Wiring.resultCell text (upper e.1) (some o) = .ok c := by
  obtain ⟨s, o, slot, entry, outcome, ends⟩ :=
    pass.settled.ends pass.wired pass.isOrder first written
  obtain ⟨c, final, shown⟩ :=
    Roster.get?_traverse pass.cells (t.cells.get?_of_mem (mem_of_first? first))
  unfold Wiring.finalCell at final
  simp only [written, slot, entry, outcome, ne_eq, not_true_eq_false, if_false] at final
  exact ⟨s, o, c, slot, outcome, ends, shown, final⟩

theorem Table.Pass.exists_result (pass : t.Pass settings r w v order) {e : String × Cell}
    (first : first? t.cells.entries (upper e.1) = some e) {text : String}
    (written : e.2.formula? = some text) :
    ∃ c o, r.table.cells.get? e.1 = some c ∧ Ends settings.limit w v (upper e.1) text o ∧
      Wiring.resultCell text (upper e.1) (some o) = .ok c := by
  obtain ⟨_, o, c, _, _, ends, shown, final⟩ := pass.exists_slot first written
  exact ⟨c, o, shown, ends, final⟩

theorem resultCell_cases {text key : String} {o : Outcome} {c : Cell}
    (h : Wiring.resultCell text key (some o) = .ok c) :
    (∃ code, o = .error code ∧ c = ⟨none, some text, some code.text⟩) ∨
      ∃ x s, o = .ok x ∧ c = ⟨some s, some text, none⟩ := by
  rcases o with code | x
  · cases h
    exact Or.inl ⟨code, rfl, rfl⟩
  · obtain ⟨s, _, h⟩ := exists_of_bind h
    cases h
    exact Or.inr ⟨x, s, rfl, rfl⟩

theorem Table.Pass.shows (pass : t.Pass settings r w v order) {e : String × Cell}
    (first : first? t.cells.entries (upper e.1) = some e) {text : String}
    (written : e.2.formula? = some text) :
    ∃ c o, r.table.cells.get? e.1 = some c ∧ Ends settings.limit w v (upper e.1) text o ∧
      ((∃ code, o = .error code ∧ c = ⟨none, some text, some code.text⟩) ∨
        ∃ x s, o = .ok x ∧ c = ⟨some s, some text, none⟩) := by
  obtain ⟨c, o, shown, ends, result⟩ := pass.exists_result first written
  exact ⟨c, o, shown, ends, resultCell_cases result⟩

theorem Table.Pass.shows_number (pass : t.Pass settings r w v order) {e : String × Cell}
    (first : first? t.cells.entries (upper e.1) = some e) {text : String}
    (written : e.2.formula? = some text) {f : Formula}
    (parsed : Formula.parse text settings.limit = .ok f) (clear : upper e.1 ∉ w.flagged)
    {x : Float} (came : f.outcome v.read = .ok (.number x)) {s : String}
    (shown : (Value.number x).display = .ok s) :
    r.table.cells.get? e.1 = some ⟨some s, some text, none⟩ := by
  obtain ⟨c, o, found, ends, result⟩ := pass.exists_result first written
  cases ends with
  | unreadable failed => cases failed.symm.trans parsed
  | flagged _ flag => exact absurd flag clear
  | settled parsed' _ came' _ =>
    cases parsed.symm.trans parsed'
    cases came.symm.trans came'
    have sent : Wiring.resultCell text (upper e.1) (some (.ok (.number x))) = .ok c := result
    simp only [Wiring.resultCell, shown, bind, Except.bind, Except.ok.injEq] at sent
    rw [found, sent]

theorem Table.Pass.shows_repeated (pass : t.Pass settings r w v order) {e : String × Cell}
    (member : e ∈ t.cells.entries) (later : first? t.cells.entries (upper e.1) ≠ some e)
    {text : String} (written : e.2.formula? = some text) :
    r.table.cells.get? e.1 = some ⟨none, some text, some "#REF!"⟩ := by
  obtain ⟨e', first⟩ := exists_first? member
  have other : e'.1 ≠ e.1 := by
    intro same
    have found := t.cells.get?_of_mem (mem_of_first? first)
    rw [same, t.cells.get?_of_mem member, Option.some.injEq] at found
    exact later (first.trans (congrArg some (Prod.ext same found.symm)))
  obtain ⟨s, slot, entry⟩ := pass.settled.entry pass.wired pass.isOrder first
  obtain ⟨c, final, shown⟩ := Roster.get?_traverse pass.cells (t.cells.get?_of_mem member)
  unfold Wiring.finalCell at final
  simp only [written, slot, entry] at final
  rw [if_pos other] at final
  cases final
  exact shown

/-! ## Errors tell their causes -/

/-- What a formula shows after it was read: the flag of its key, or an error that evaluation brings,
or none. -/
theorem verdict_cases {x : Value} (shown : Shown x) :
    (∃ code ∈ ownCodes, verdict x = .error code) ∨ verdict x = .ok x := by
  cases x with
  | error code => exact Or.inl ⟨code, shown, rfl⟩
  | _ => exact Or.inr rfl

theorem Table.Pass.error_of_unread (pass : t.Pass settings r w v order) {e : String × Cell}
    (first : first? t.cells.entries (upper e.1) = some e) {text : String}
    (written : e.2.formula? = some text) {cause : ParseError}
    (failed : Formula.parse text settings.limit = .error cause) :
    ∃ c, r.table.cells.get? e.1 = some c ∧ c.error = some "#ERROR!" := by
  obtain ⟨c, o, found, ends, shown⟩ := pass.shows first written
  refine ⟨c, found, ?_⟩
  cases ends with
  | unreadable =>
    rcases shown with ⟨code, same, rfl⟩ | ⟨x, s, same, _⟩ <;> cases same
    rfl
  | flagged parsed _ => cases failed.symm.trans parsed
  | settled parsed _ _ _ => cases failed.symm.trans parsed

theorem Table.Pass.shows_flagged (pass : t.Pass settings r w v order) {e : String × Cell}
    (first : first? t.cells.entries (upper e.1) = some e) {text : String}
    (written : e.2.formula? = some text) {f : Formula}
    (parsed : Formula.parse text settings.limit = .ok f) (flag : upper e.1 ∈ w.flagged) :
    r.table.cells.get? e.1 = some ⟨none, some text, some "#REF!"⟩ := by
  obtain ⟨c, o, found, ends, shown⟩ := pass.shows first written
  cases ends with
  | unreadable failed => cases failed.symm.trans parsed
  | flagged =>
    rcases shown with ⟨code, same, rfl⟩ | ⟨x, s, same, _⟩ <;> cases same
    exact found
  | settled _ clear _ _ => exact absurd flag clear

/-- Without a flag there is at most an error that evaluation brings. -/
theorem Table.Pass.error_of_clear (pass : t.Pass settings r w v order) {e : String × Cell}
    (first : first? t.cells.entries (upper e.1) = some e) {text : String}
    (written : e.2.formula? = some text) {f : Formula}
    (parsed : Formula.parse text settings.limit = .ok f) (clear : upper e.1 ∉ w.flagged) :
    ∃ c, r.table.cells.get? e.1 = some c ∧
      ∀ message, c.error = some message → message ∈ ["#DIV/0!", "#VALUE!", "#NAME!"] := by
  obtain ⟨c, o, found, ends, shown⟩ := pass.shows first written
  refine ⟨c, found, fun message error => ?_⟩
  cases ends with
  | unreadable failed => cases failed.symm.trans parsed
  | flagged _ flag => exact absurd flag clear
  | settled _ _ _ proper =>
    have texts : ∀ code ∈ ownCodes, code.text ∈ ["#DIV/0!", "#VALUE!", "#NAME!"] := by decide
    rcases shown with ⟨code, same, rfl⟩ | ⟨x, s, same, rfl⟩
    · cases error
      rcases verdict_cases proper with ⟨code', own, same'⟩ | same' <;> cases same.symm.trans same'
      exact texts code own
    · cases error

/-- Whatever error a recalculated table shows at a first entry tells its cause: one error is for
texts that cannot be read, one for references off the grid and for loops, and three are of
evaluation. And no loop of references is without a bad reference. -/
theorem recalculate_classifies_errors {settings : Settings} {t : Table} {r : Recalculated}
    (h : t.recalculate settings = .ok r) :
    (∀ e text, first? t.cells.entries (upper e.1) = some e → e.2.formula? = some text →
      ∃ c, r.table.cells.get? e.1 = some c ∧
        (c.error = some "#ERROR!" ↔ ∃ cause, Formula.parse text settings.limit = .error cause) ∧
        (∀ f, Formula.parse text settings.limit = .ok f →
          (∃ s ∈ f.references, t.bounds.contains s = .ok false) → c.error = some "#REF!") ∧
        (c.error = some "#REF!" → ∃ f, Formula.parse text settings.limit = .ok f ∧
          ((∃ s ∈ f.references, t.bounds.contains s = .ok false) ∨
            TransGen (Refers settings.limit t.cells.entries) (upper e.1) (upper e.1))) ∧
        ∀ message, c.error = some message →
          message ∈ ["#ERROR!", "#REF!", "#DIV/0!", "#VALUE!", "#NAME!"]) ∧
      ∀ (k : ℕ → String) (n : ℕ), 0 < n →
        (∀ i < n, Refers settings.limit t.cells.entries (k i) (k (i + 1))) → k n = k 0 →
        ∃ i < n, ∃ e c, first? t.cells.entries (k i) = some e ∧
          r.table.cells.get? e.1 = some c ∧ c.error = some "#REF!" := by
  obtain ⟨w, v, order, _, pass⟩ := Table.exists_pass h
  constructor
  · intro e text first written
    -- The text cannot be read; or its key is flagged; or it is evaluated.
    rcases parsed : Formula.parse text settings.limit with cause | f
    · obtain ⟨c, found, error⟩ := pass.error_of_unread first written parsed
      refine ⟨c, found, ?_, ?_, ?_, ?_⟩ <;> rw [error]
      · exact ⟨fun _ => ⟨cause, rfl⟩, fun _ => rfl⟩
      · exact fun f same => absurd same (by simp)
      · exact fun same => absurd same (by decide)
      · exact fun message same => Option.some.inj same ▸ by decide
    have refers : ∀ s, Refers settings.limit t.cells.entries (upper e.1) s ↔ s ∈ f.references := by
      intro s
      simp [Refers, first, Cell.mem_references_iff, written, parsed]
    by_cases flag : upper e.1 ∈ w.flagged
    · refine ⟨_, pass.shows_flagged first written parsed flag, ?_, fun _ _ _ => rfl, fun _ => ?_,
        fun message same => Option.some.inj same ▸ by decide⟩
      · exact ⟨fun same => absurd same (by simp), fun failed => absurd failed (by simp)⟩
      · refine ⟨f, rfl, ?_⟩
        rcases pass.wired.cause_of_flagged flag with ⟨s, hs, outside⟩ | loop
        · exact Or.inl ⟨s, (refers s).1 hs, outside⟩
        · exact Or.inr loop
    · obtain ⟨c, found, own⟩ := pass.error_of_clear first written parsed flag
      refine ⟨c, found, ⟨fun same => absurd (own _ same) (by decide), ?_⟩, ?_, ?_, ?_⟩
      · exact fun failed => absurd failed (by simp)
      · rintro g same ⟨s, hs, outside⟩
        cases same
        exact absurd (pass.wired.flagged_of_outside ((refers s).2 hs) outside) flag
      · exact fun same => absurd (own _ same) (by decide)
      · exact fun message same => List.mem_append_right ["#ERROR!", "#REF!"] (own message same)
  · intro k n pos steps closed
    obtain ⟨i, hi, flag⟩ := pass.wired.exists_flagged pos steps closed
    obtain ⟨e, first, member⟩ := steps i hi
    obtain ⟨text, f, written, parsed, _⟩ := Cell.mem_references_iff.1 member
    have key := upper_of_first? first
    exact ⟨i, hi, e, _, first, pass.shows_flagged (key ▸ first) written parsed (key ▸ flag), rfl⟩

/-- A table with a cell that reads itself and one that cannot be read. -/
def Table.faulty : Table where
  rows := 1
  columns := .ofEntries [("A", ⟨"", []⟩), ("B", ⟨"", []⟩)]
  cells := .ofEntries [("A1", ⟨none, some "=A1", none⟩), ("B1", ⟨none, some "=1+", none⟩)]

theorem Table.faulty_returns : ∃ r, Table.faulty.recalculate .usual = .ok r := by
  have returns : (Table.faulty.recalculate .usual).toOption.isSome = true := by decide +kernel
  obtain ⟨r, result⟩ := Option.isSome_iff_exists.1 returns
  exact ⟨r, eq_ok_of_toOption result⟩

theorem recalculate_classifies_errors_of_faulty :
    ∃ r, Table.faulty.recalculate .usual = .ok r ∧
      (∃ c, r.table.cells.get? "A1" = some c ∧ c.error = some "#REF!") ∧
      ∃ c, r.table.cells.get? "B1" = some c ∧ c.error = some "#ERROR!" := by
  obtain ⟨r, h⟩ := Table.faulty_returns
  obtain ⟨single, loops⟩ := recalculate_classifies_errors h
  refine ⟨r, h, ?_, ?_⟩
  · have first : first? Table.faulty.cells.entries "A1" =
        some ("A1", ⟨none, some "=A1", none⟩) := by decide +kernel
    have reads : Refers Settings.usual.limit Table.faulty.cells.entries "A1" "A1" :=
      ⟨_, first, by decide +kernel⟩
    obtain ⟨_, _, e, c, first', found, error⟩ :=
      loops (fun _ => "A1") 1 (by decide) (fun _ _ => reads) rfl
    cases first.symm.trans first'
    exact ⟨c, found, error⟩
  · obtain ⟨c, found, unread, _⟩ :=
      single ("B1", ⟨none, some "=1+", none⟩) "=1+" (by decide +kernel) (by decide +kernel)
    refine ⟨c, found, unread.2 ?_⟩
    have none : (Formula.parse "=1+" Settings.usual.limit).toOption.isNone = true := by
      decide +kernel
    rcases parsed : Formula.parse "=1+" Settings.usual.limit with cause | f
    · exact ⟨cause, rfl⟩
    · rw [parsed] at none
      cases none

end Worksheet
