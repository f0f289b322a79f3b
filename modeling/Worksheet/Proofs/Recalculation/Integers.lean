-- Integers below 10^15 in size pass through a table unchanged: sent as a value, shown by a
-- reference to such a cell, and written as a formula that is just the digits.
import Mathlib.Data.List.TakeWhile
import Worksheet.Draft
import Worksheet.Proofs.Number.WholeNumbers
import Worksheet.Proofs.Recalculation.Loopless

open Relation

namespace Worksheet

open Worksheet.Formula
open Worksheet.Text (upper)

namespace Formula

theorem isDigit_of_ascii {c : Char} (h : c.isDigit = true) : Text.isDigit c = true := by
  refine forall_ascii (P := fun c => c.isDigit = true → Text.isDigit c = true) ?_
    (lt_of_isDigit h) h
  decide +kernel

theorem lexeme?_digits {ds : List Char} (filled : ds ≠ []) (digital : ∀ c ∈ ds, c.isDigit = true) :
    lexeme? ds = some ⟨some .number, ds.length⟩ := by
  have digits : ∀ c ∈ ds, Text.isDigit c = true := fun c hc => isDigit_of_ascii (digital c hc)
  obtain ⟨c, r, rfl⟩ := List.exists_cons_of_ne_nil filled
  have solid : run Text.isBlank (c :: r) = 0 := by
    simp [run, (digit_spec (digital c (List.mem_cons_self ..))).1]
  have all : run Text.isDigit (c :: r) = (c :: r).length := by
    rw [run, List.takeWhile_eq_self_iff.2 digits]
  have rest : (c :: r).dropWhile Text.isDigit = [] := List.dropWhile_eq_nil_iff.2 digits
  have number : numberLength (c :: r) = (c :: r).length := by
    rw [numberLength_of_no_point fun r same => by simp [rest] at same, all, rest]
    exact if_neg (Nat.succ_ne_zero _)
  rw [lexeme?, solid, number, if_neg (Nat.lt_irrefl 0), if_pos (List.length_pos_of_ne_nil filled)]

theorem parse_digits {s : String} (filled : s.toList ≠ [])
    (digital : ∀ c ∈ s.toList, c.isDigit = true) (limit : Formula.Limit) :
    parse ("=" ++ s) limit = .ok ⟨"=" ++ s, .atom ⟨.number, s, 1⟩⟩ := by
  have leaf : Derives .primary [⟨.number, s, 1⟩] (.atom ⟨.number, s, 1⟩) := .number rfl
  have chars : ("=" ++ s).toList = '=' :: s.toList := by
    rw [String.toList_append]
    rfl
  have lexeme : lexeme? (s.toList ++ []) = some ⟨some .number, s.toList.length⟩ := by
    rw [List.append_nil, lexeme?_digits filled digital]
  have number := Scanned.token lexeme (.done (0 + 1 + s.toList.length))
  rw [List.append_nil, String.ofList_toList] at number
  refine parse_eq_ok_iff.2 ⟨rfl, ?_, _, ?_, leaf.of_primary, limit.allows_atom _⟩
  · rw [chars]
    rfl
  · exact (number.symbol rfl rfl).scan_eq chars

end Formula

variable {settings : Settings} {t : Table} {r : Recalculated} {w v : Wiring} {order : List String}
  {text : String} {f : Formula}

/-- A formula that is just a reference, on the grid, to a literal. -/
structure Table.Points (settings : Settings) (t : Table) (e : String × Cell) (text : String)
    (source : String × Cell) : Prop where
  first : first? t.cells.entries (upper e.1) = some e
  written : e.2.formula? = some text
  parsed : ∃ f reference start, Formula.parse text settings.limit = .ok f ∧
    f.body = .atom ⟨.cell, reference, start⟩ ∧ upper reference = upper source.1
  onGrid : t.bounds.contains (upper source.1) = .ok true
  literal : source.2.formula? = none
  firstSource : first? t.cells.entries (upper source.1) = some source

/-- A formula that is just a reference to a literal with a number shows the number. -/
theorem Table.Points.shows {e source : String × Cell} (points : t.Points settings e text source)
    (pass : t.Pass settings r w v order) {raw : String} {x : Float} {s : String}
    (value : source.2.value = some raw) (number : Value.ofLiteral? raw = some (.number x))
    (shown : (Value.number x).display = .ok s) :
    r.table.cells.get? e.1 = some ⟨some s, some text, none⟩ := by
  obtain ⟨f, reference, start, parsed, body, names⟩ := points.parsed
  have references : f.references = [upper source.1] := by
    simp [references_eq, body, Expr.references, Expr.cells, names]
  have clear : upper e.1 ∉ w.flagged := by
    refine pass.wired.clear_of_no_way_back fun s refers => ?_
    rw [refers_iff points.first points.written parsed, references, List.mem_singleton] at refers
    rw [refers]
    refine ⟨points.onGrid, fun back => ?_⟩
    -- The literal is another entry, and it names nothing.
    rcases back.cases_head with same | ⟨next, refers, _⟩
    · have entry := points.firstSource
      rw [same, points.first, Option.some.injEq] at entry
      have formula := points.written
      rw [entry, points.literal] at formula
      cases formula
    · exact not_refers_of_literal points.firstSource points.literal next refers
  have came : f.outcome v.read = .ok (.number x) := by
    have read := pass.read_literal points.firstSource points.literal
    simp only [Wiring.literalValue, value, Option.bind_some, number, Option.getD_some] at read
    rw [outcome_eq, body, Expr.result, Atom.result, names, read]
    rfl
  exact pass.shows_number points.first points.written parsed clear came shown

theorem Table.Pass.shows_digits (pass : t.Pass settings r w v order) {e : String × Cell}
    (first : first? t.cells.entries (upper e.1) = some e) {raw : String} {start : Nat}
    (written : e.2.formula? = some text)
    (parsed : Formula.parse text settings.limit = .ok ⟨text, .atom ⟨.number, raw, start⟩⟩)
    {x : Float} (number : Number.read? raw = some x) (finite : x.isFinite = true) {s : String}
    (shown : (Value.number x).display = .ok s) :
    r.table.cells.get? e.1 = some ⟨some s, some text, none⟩ := by
  have clear : upper e.1 ∉ w.flagged := by
    refine pass.wired.clear_of_no_way_back fun s refers => ?_
    simp [refers_iff first written parsed, references_eq, Expr.references, Expr.cells] at refers
  have came : Formula.outcome v.read ⟨text, .atom ⟨.number, raw, start⟩⟩ = .ok (.number x) := by
    rw [outcome_eq, Expr.result, Atom.result, numberValue, number]
    simp only [Value.ofFloat, finite, if_true]
    rfl
  exact pass.shows_number first written parsed clear came shown

/-- A table comes back with a cell at a key, unless a row number with too many digits in one of its
references stops the recalculation. -/
def Table.ComesBack (settings : Settings) (t : Table) (key : String) (c : Cell) : Prop :=
  (∃ r, t.recalculate settings = .ok r ∧ r.table.cells.get? key = some c) ∨
    ∃ fault, t.recalculate settings = .error fault ∧
      fault.OfLongRow settings.limit t.cells.entries

theorem Table.comesBack_of_pass {key : String} {c : Cell}
    (shows : ∀ r w v order, t.Pass settings r w v order → r.table.cells.get? key = some c) :
    t.ComesBack settings key c := by
  rcases t.recalculate_ends_or_stops settings with ⟨r, result⟩ | stopped
  · obtain ⟨w, v, order, _, pass⟩ := Table.exists_pass result
    exact Or.inl ⟨r, result, shows r w v order pass⟩
  · exact Or.inr stopped

/-- A cell that was sent with an integer for its value is stored with the digits of the integer. -/
theorem value_of_checked {path : List String} {fields : List (String × Json)} {n : Int} {c : Cell}
    (sent : Entries.get? fields "value" = some (.int n))
    (checked : Cell.check path (.object fields) = .ok c) : c.value = some (toString n) := by
  have stored : checkField path fields "value" = .ok (some (toString n)) := by
    rw [checkField, sent]
    rfl
  rw [Cell.check, stored] at checked
  cases rest : Checked.both Prod.mk (checkField path fields "formula")
      (checkField path fields "error") with
  | error ps =>
    rw [rest] at checked
    cases checked
  | ok fields =>
    rw [rest] at checked
    cases checked
    rfl

/-- Integers below 10^15 in size pass through a table unchanged. Sent as the value of a cell, an
integer is stored with its digits, which are read as the double that is the integer. A formula that
is just a reference to such a cell, on the grid, shows the same digits, and so does a formula that
is just the digits of the integer, where it is not negative. -/
theorem integers_pass_through {n : Int} (small : n.natAbs < 10 ^ 15) :
    (∀ path fields c, Entries.get? fields "value" = some (.int n) →
      Cell.check path (.object fields) = .ok c → c.value = some (toString n)) ∧
    (∀ path, Cell.check path (.object [("value", .int n)]) = .ok ⟨some (toString n), none, none⟩) ∧
    (∃ x : Float, Value.ofLiteral? (toString n) = some (.number x) ∧ x.isFinite = true ∧
      (Number.parts x).negative = decide (n < 0) ∧
      (Number.parts x).num = n.natAbs * (Number.parts x).den) ∧
    (∀ settings t e text source, Table.Points settings t e text source →
      source.2.value = some (toString n) →
        t.ComesBack settings e.1 ⟨some (toString n), some text, none⟩) ∧
    (0 ≤ n → ∀ (settings : Settings) (t : Table) (e : String × Cell),
      first? t.cells.entries (upper e.1) = some e → e.2.formula = some ("=" ++ toString n) →
        t.ComesBack settings e.1 ⟨some (toString n), some ("=" ++ toString n), none⟩) := by
  obtain ⟨x, finite, sign, size, read, number, shown⟩ :=
    Number.exists_number_of_integer (n := n) small
  refine ⟨fun path fields c => value_of_checked, fun path => rfl, ⟨x, number, finite, sign, size⟩,
    ?_, ?_⟩
  · intro settings t e text source points value
    exact Table.comesBack_of_pass fun r w v order pass => points.shows pass value number shown
  · intro positive settings t e first written
    have digits : (toString n).toList = Nat.toDigits 10 n.natAbs := by
      rw [Number.toString_eq_signed, decide_eq_false (Int.not_lt.2 positive)]
      exact String.toList_ofList
    have parsed := parse_digits (s := toString n) (by rw [digits]; exact Nat.toDigits_ne_nil)
      (by rw [digits]; exact fun c => Number.isDigit_of_mem_toDigits) settings.limit
    exact Table.comesBack_of_pass fun r w v order pass =>
      pass.shows_digits first (formula?_of_sign written) parsed read finite shown

/-- A table with the largest such integer as a value, a reference to it, and its digits. -/
def Table.carrying : Table where
  rows := 1
  columns := .ofEntries [("A", ⟨"", []⟩), ("B", ⟨"", []⟩), ("C", ⟨"", []⟩)]
  cells := .ofEntries [("a1", ⟨some "999999999999999", none, none⟩),
    ("B1", ⟨none, some "= A1", none⟩), ("C1", ⟨none, some "=999999999999999", none⟩)]

theorem Table.points_carrying :
    Table.carrying.Points .usual ("B1", ⟨none, some "= A1", none⟩) "= A1"
      ("a1", ⟨some "999999999999999", none, none⟩) where
  first := by decide +kernel
  written := by decide
  parsed := by
    have parsed : (Formula.parse "= A1" Settings.usual.limit).toOption =
        some ⟨"= A1", .atom ⟨.cell, "A1", 2⟩⟩ := by decide +kernel
    exact ⟨_, "A1", 2, eq_ok_of_toOption parsed, rfl, by decide⟩
  onGrid := eq_ok_of_toOption (by decide +kernel)
  literal := by decide
  firstSource := by decide +kernel

theorem integers_pass_through_of_carrying :
    Cell.check ["data", "a1"] (.object [("value", .int 999999999999999)]) =
      .ok ⟨some "999999999999999", none, none⟩ ∧
    ∃ r, Table.carrying.recalculate .usual = .ok r ∧
      r.table.cells.get? "B1" = some ⟨some "999999999999999", some "= A1", none⟩ ∧
      r.table.cells.get? "C1" = some ⟨some "999999999999999", some "=999999999999999", none⟩ := by
  obtain ⟨_, stored, _, points, digits⟩ :=
    integers_pass_through (n := 999999999999999) (by decide)
  have returns : (Table.carrying.recalculate .usual).toOption.isSome = true := by decide +kernel
  obtain ⟨r, result⟩ := Option.isSome_iff_exists.1 returns
  have result := eq_ok_of_toOption result
  have back : ∀ key c, Table.carrying.ComesBack .usual key c → r.table.cells.get? key = some c := by
    rintro key c (⟨r', result', found⟩ | ⟨_, stopped, _⟩)
    · cases result.symm.trans result'
      exact found
    · cases result.symm.trans stopped
  refine ⟨stored _, r, result, back _ _ ?_, back _ _ ?_⟩
  · exact points .usual .carrying _ _ _ Table.points_carrying (by decide)
  · exact digits (by decide) .usual .carrying ("C1", ⟨none, some "=999999999999999", none⟩)
      (by decide +kernel) (by decide)

end Worksheet
