-- How a recalculation ends. Only a row number that has too many digits to be read stops it. Else
-- the table comes back in the shape that it was sent in, every formula with a value or an error.
import Worksheet.Proofs.Formula.References
import Worksheet.Proofs.Recalculation.Inputs
import Worksheet.Proofs.Recalculation.Showing
import Worksheet.Proofs.Wiring.Completion

open Relation

namespace Worksheet

open Worksheet.Formula
open Worksheet.Text (upper upperChar)

variable {settings : Settings} {t : Table} {r : Recalculated} {w v : Wiring} {order : List String}

/-! ## What is wired is recalculated -/

theorem exists_resultCell {x : Value} (shown : Shown x) (text key : String) :
    ∃ c, Wiring.resultCell text key (some (verdict x)) = .ok c := by
  cases x with
  | number y =>
    obtain ⟨s, displayed⟩ := exists_display (v := .number y) shown
    refine ⟨⟨some s, some text, none⟩, ?_⟩
    simp only [Wiring.resultCell, verdict, displayed]
    rfl
  | _ => exact ⟨_, rfl⟩

theorem Ends.exists_cell {limit : Formula.Limit} {key text : String} {o : Outcome}
    (ends : Ends limit w v key text o) : ∃ c, Wiring.resultCell text key (some o) = .ok c := by
  cases ends with
  | unreadable => exact ⟨_, rfl⟩
  | flagged => exact ⟨_, rfl⟩
  | settled _ _ _ shown => exact exists_resultCell shown text key

theorem Wiring.Settled.exists_finalCell {limit : Formula.Limit} {bounds : Bounds}
    {cells : Roster Cell}
    (settled : w.Settled order v) (inv : w.Complete limit bounds cells.entries)
    (isOrder : w.graph.IsOrder order) {e : String × Cell} (member : e ∈ cells.entries) :
    ∃ c, v.finalCell e.1 e.2 = .ok c := by
  unfold finalCell
  rcases written : e.2.formula? with _ | text
  · exact ⟨e.2, rfl⟩
  obtain ⟨e', first⟩ := exists_first? member
  obtain ⟨s, slot, entry⟩ := settled.entry inv isOrder first
  simp only [slot]
  split
  · exact ⟨_, rfl⟩
  · rename_i same
    -- The first entry with the key is the entry itself, so its slot holds how its formula ends.
    have cell := cells.get?_of_mem (mem_of_first? first)
    have own : e'.1 = e.1 := entry.symm.trans (not_not.1 same)
    rw [own, cells.get?_of_mem member, Option.some.injEq] at cell
    obtain ⟨s', o, slot', _, outcome, ends⟩ := settled.ends inv isOrder first (cell ▸ written)
    cases slot.symm.trans slot'
    rw [outcome]
    exact ends.exists_cell

theorem Table.exists_recalculated (wired : Wiring.ofCells settings t.bounds t.cells = .ok w) :
    ∃ r, t.recalculate settings = .ok r := by
  have inv := Wiring.complete_of_run wired
  obtain ⟨order, ⟨v, errors⟩, isOrder, evaluated, settled⟩ := inv.ready.evaluate
  obtain ⟨cells, written⟩ := Roster.exists_traverse fun e (member : e ∈ t.cells.entries) =>
    settled.exists_finalCell inv isOrder member
  exact ⟨_, Table.recalculate_of_steps wired evaluated written⟩

/-- A table is recalculated, or a row number with too many digits stops it. -/
theorem Table.recalculate_ends_or_stops (settings : Settings) (t : Table) :
    (∃ r, t.recalculate settings = .ok r) ∨
      ∃ fault, t.recalculate settings = .error fault ∧
        fault.OfLongRow settings.limit t.cells.entries := by
  rcases Wiring.ofCells_ends_or_stops settings t.bounds t.cells with
    ⟨w, wired⟩ | ⟨fault, stopped, cause⟩
  · exact Or.inl (Table.exists_recalculated wired)
  · refine Or.inr ⟨fault, ?_, cause⟩
    unfold recalculate
    rw [stopped]
    rfl

/-! ## The shape of what comes back -/

theorem first?_ne_of_repeated {cells : Roster Cell} {before after : List (String × Cell)}
    {e : String × Cell} (whole : cells.entries = before ++ e :: after)
    (repeated : ∃ e' ∈ before, upper e'.1 = upper e.1) :
    first? cells.entries (upper e.1) ≠ some e := by
  have absent : e ∉ before := by
    intro again
    have nodup := cells.nodup
    rw [whole, Entries.keys, List.map_append, List.nodup_append] at nodup
    exact nodup.2.2 e.1 (List.mem_map_of_mem again) e.1 (by simp) rfl
  obtain ⟨e', member, same⟩ := repeated
  rw [whole, ne_eq, first?_middle_iff absent, first?_eq_none_iff]
  exact fun none => none e' member same

theorem Table.Pass.exists_shown (pass : t.Pass settings r w v order) {e : String × Cell}
    (member : e ∈ t.cells.entries) {text : String} (written : e.2.formula? = some text) :
    ∃ c, r.table.cells.get? e.1 = some c ∧ c.formula = some text ∧
      (c.value = none ↔ c.error ≠ none) := by
  by_cases first : first? t.cells.entries (upper e.1) = some e
  · obtain ⟨c, o, found, _, ⟨code, _, rfl⟩ | ⟨x, s, _, rfl⟩⟩ := pass.shows first written
    · exact ⟨_, found, rfl, by simp⟩
    · exact ⟨_, found, rfl, by simp⟩
  · exact ⟨_, pass.shows_repeated member first written, rfl, by simp⟩

/-- A table whose formulas name no row number with too many digits is recalculated. It comes back
with its rows, columns and keys as they were, and nothing else; what has no formula comes back as
it is, what has one comes back with either a value or an error, and with a bad reference where
an earlier entry has its key. -/
theorem recalculate_keeps_shape
    (short : ∀ e ∈ t.cells.entries, ∀ reference ∈ e.2.references settings.limit,
      digitCount reference ≤ Fault.maxRowDigits) :
    ∃ r, t.recalculate settings = .ok r ∧ r.table.rows = t.rows ∧
      r.table.columns = t.columns ∧ r.table.cells.keys = t.cells.keys ∧
      ∀ before e after, t.cells.entries = before ++ e :: after →
        ∃ c, r.table.cells.get? e.1 = some c ∧ (e.2.formula? = none → c = e.2) ∧
          ∀ text, e.2.formula? = some text →
            c.formula = some text ∧ (c.value = none ↔ c.error ≠ none) ∧
              ((∃ e' ∈ before, upper e'.1 = upper e.1) → c.error = some "#REF!") := by
  rcases t.recalculate_ends_or_stops settings with
    ⟨r, h⟩ | ⟨_, _, key, reference, ⟨e, first, named⟩, long, _⟩
  · obtain ⟨w, v, order, _, pass⟩ := Table.exists_pass h
    have inputs := Table.sameInputs_of_recalculate h
    refine ⟨r, h, inputs.rows, inputs.columns, inputs.keys, fun before e after whole => ?_⟩
    have member : e ∈ t.cells.entries := by simp [whole]
    rcases written : e.2.formula? with _ | text
    · obtain ⟨c, final, found⟩ := Roster.get?_traverse pass.cells (t.cells.get?_of_mem member)
      exact ⟨c, found, fun _ => (Wiring.finalCell_input final).2 written, nofun⟩
    · obtain ⟨c, found, formula, either⟩ := pass.exists_shown member written
      refine ⟨c, found, nofun, ?_⟩
      rintro _ ⟨⟩
      refine ⟨formula, either, fun repeated => ?_⟩
      have later := first?_ne_of_repeated whole repeated
      cases found.symm.trans (pass.shows_repeated member later written)
      rfl
  · exact absurd long (Nat.not_lt.2 (short e (mem_of_first? first) reference named))

/-- A repeated key and a literal beside formulas. -/
theorem recalculate_keeps_shape_of_worn :
    ∃ r, (Table.worn none none).recalculate .usual = .ok r ∧
      r.table.cells.keys = ["A1", "a1", "B1", "A2"] ∧
      r.table.cells.get? "B1" = some ⟨some "3", none, none⟩ ∧
      ∃ c, r.table.cells.get? "a1" = some c ∧ c.error = some "#REF!" := by
  have short : ∀ e ∈ (Table.worn none none).cells.entries,
      ∀ reference ∈ e.2.references Settings.usual.limit,
        digitCount reference ≤ Fault.maxRowDigits := by decide +kernel
  obtain ⟨r, h, _, _, keys, each⟩ := recalculate_keeps_shape short
  refine ⟨r, h, keys, ?_, ?_⟩
  · obtain ⟨c, found, literal, _⟩ := each [_, _] ("B1", ⟨some "3", none, none⟩) [_] rfl
    rw [found, literal (by decide)]
  · obtain ⟨c, found, _, formula⟩ := each [_] ("a1", ⟨none, some "=1/0", none⟩) [_, _] rfl
    obtain ⟨_, _, repeated⟩ := formula "=1/0" (by decide)
    exact ⟨c, found, repeated ⟨_, List.mem_singleton_self _, by decide +kernel⟩⟩

/-! ## What stops a recalculation -/

/-- Whatever its formulas say, a table is recalculated, unless one of them names a row number with
too many digits. Where it is recalculated nevertheless, the key that is named leads back to
the formula that names it, and a bad reference is flagged there. Each formula then shows what it
ends in by itself: an entry whose key stands before it a bad reference, and any other the error of
its text, the flag of its key, or what it comes to. And a key is flagged only for a reference of
its own off the grid or for a loop on which it lies. -/
theorem recalculate_stops_only_for_long_rows (settings : Settings) (t : Table) :
    (∀ fault, t.recalculate settings = .error fault →
      fault.OfLongRow settings.limit t.cells.entries) ∧
    ∀ r, t.recalculate settings = .ok r → ∃ w v errors,
      Wiring.ofCells settings t.bounds t.cells = .ok w ∧ w.evaluate = .ok (v, errors) ∧
      (∀ key reference, Refers settings.limit t.cells.entries key reference →
        Fault.maxRowDigits < digitCount reference →
          ReflTransGen (Refers settings.limit t.cells.entries) reference key ∧
            key ∈ w.flagged) ∧
      (∀ e ∈ t.cells.entries, ∀ text, e.2.formula? = some text →
        (first? t.cells.entries (upper e.1) ≠ some e →
          r.table.cells.get? e.1 = some ⟨none, some text, some "#REF!"⟩) ∧
        (first? t.cells.entries (upper e.1) = some e → ∃ c o,
          r.table.cells.get? e.1 = some c ∧ Ends settings.limit w v (upper e.1) text o ∧
            Wiring.resultCell text (upper e.1) (some o) = .ok c)) ∧
      ∀ key ∈ w.flagged,
        (∃ reference, Refers settings.limit t.cells.entries key reference ∧
          t.bounds.contains reference = .ok false) ∨
        TransGen (Refers settings.limit t.cells.entries) key key := by
  constructor
  · intro fault stopped
    rcases t.recalculate_ends_or_stops settings with ⟨r, h⟩ | ⟨fault', stopped', cause⟩
    · cases stopped.symm.trans h
    · cases stopped.symm.trans stopped'
      exact cause
  · intro r h
    obtain ⟨w, v, errors, order, wired, evaluated, pass⟩ := Table.exists_steps h
    refine ⟨w, v, errors, wired, evaluated, ?_, ?_, ?_⟩
    · intro key reference refers long
      exact ⟨pass.wired.leads_back_of_long refers long, pass.wired.flagged_of_long refers long⟩
    · intro e member text written
      exact ⟨fun later => pass.shows_repeated member later written,
        fun first => pass.exists_result first written⟩
    · exact fun key flag => pass.wired.cause_of_flagged flag

/-! ## A row number with too many digits -/

theorem formula?_of_sign {c : Cell} {text : String} (written : c.formula = some ("=" ++ text)) :
    c.formula? = some ("=" ++ text) := by
  simp [Cell.formula?, written]

theorem IsReference.references_eq {reference : String} {letters digits : List Char}
    (h : IsReference reference letters digits) (limit : Formula.Limit) {c : Cell}
    (written : c.formula? = some ("=" ++ reference)) : c.references limit = [upper reference] := by
  simp [Cell.references, Cell.parsed?, written, h.parse_eq, Except.toOption, Formula.references,
    Formula.cells_eq, Formula.Expr.cells]

/-- A key in column `A` whose row number has `n` digits. -/
def farKey (n : Nat) : String := .ofList ('A' :: List.replicate n '1')

/-- A table with a formula that names such a key. -/
def Table.far (n : Nat) : Table where
  rows := 1
  columns := .ofEntries [("A", ⟨"", []⟩)]
  cells := .ofEntries [("A1", ⟨none, some ("=" ++ farKey n), none⟩)]

theorem toList_farKey (n : Nat) : (farKey n).toList = 'A' :: List.replicate n '1' :=
  String.toList_ofList

theorem upper_farKey (n : Nat) : upper (farKey n) = farKey n := by
  have letter : upperChar 'A' = ['A'] := by decide
  have digit : upperChar '1' = ['1'] := by decide
  unfold upper
  rw [toList_farKey, List.flatMap_cons, List.flatMap_replicate, letter, digit]
  simp [farKey]

theorem isReference_farKey {n : Nat} (pos : 0 < n) :
    IsReference (farKey n) ['A'] (List.replicate n '1') where
  chars := toList_farKey n
  lettered := by decide
  alphabetic := List.all_eq_true.1 rfl
  numbered := by simpa using Nat.ne_of_gt pos
  numeric c member := by rw [List.eq_of_mem_replicate member]; decide

theorem digitCount_farKey {n : Nat} (pos : 0 < n) : digitCount (farKey n) = n := by
  have key := isReference_farKey pos
  unfold digitCount
  rw [key.strip_eq, key.splitKey?_eq]
  simp

theorem references_farKey {n : Nat} (pos : 0 < n) (limit : Formula.Limit) :
    Cell.references limit ⟨none, some ("=" ++ farKey n), none⟩ = [farKey n] := by
  have written : Cell.formula? ⟨none, some ("=" ++ farKey n), none⟩ = some ("=" ++ farKey n) :=
    formula?_of_sign rfl
  rw [(isReference_farKey pos).references_eq limit written, upper_farKey]

theorem refers_far_iff {n : Nat} (pos : 0 < n) {limit : Formula.Limit} {key reference : String} :
    Refers limit (Table.far n).cells.entries key reference ↔
      key = "A1" ∧ reference = farKey n := by
  have entries : (Table.far n).cells.entries =
      [("A1", ⟨none, some ("=" ++ farKey n), none⟩)] := rfl
  have first : upper "A1" = "A1" := by decide
  unfold Refers first?
  rw [entries]
  simp only [List.find?_singleton, first, decide_eq_true_eq]
  constructor
  · rintro ⟨e, found, member⟩
    split at found <;> cases found
    rename_i same
    rw [references_farKey pos, List.mem_singleton] at member
    exact ⟨same.symm, member⟩
  · rintro ⟨rfl, rfl⟩
    exact ⟨_, if_pos rfl, by rw [references_farKey pos]; exact List.mem_singleton_self _⟩

/-- One formula that names a row number with too many digits stops the whole recalculation. -/
theorem recalculate_far {n : Nat} (long : Fault.maxRowDigits < n) (settings : Settings) :
    (Table.far n).recalculate settings = .error (.rowDigits n) := by
  have pos : 0 < n := Nat.zero_lt_of_lt long
  rcases (Table.far n).recalculate_ends_or_stops settings with
    ⟨r, h⟩ | ⟨fault, stopped, key, reference, refers, _, rfl⟩
  · obtain ⟨w, v, order, _, pass⟩ := Table.exists_pass h
    have names : Refers settings.limit (Table.far n).cells.entries "A1" (farKey n) :=
      (refers_far_iff pos).2 ⟨rfl, rfl⟩
    have back := pass.wired.leads_back_of_long names (by rwa [digitCount_farKey pos])
    -- The key that is named has no entry, so it would have to be `A1` itself.
    have same : farKey n = "A1" := by
      rcases back.cases_head with same | ⟨_, refers, _⟩
      · exact same
      · exact ((refers_far_iff pos).1 refers).1
    have size : n + 1 = 2 := by simpa [toList_farKey] using congrArg (·.toList.length) same
    have many : 4300 < n := long
    omega
  · rw [stopped, ((refers_far_iff pos).1 refers).2, digitCount_farKey pos]

theorem recalculate_stops_of_far :
    (Table.far 4301).recalculate .usual = .error (.rowDigits 4301) :=
  recalculate_far (by decide) .usual

end Worksheet
