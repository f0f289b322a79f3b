-- Spellings of a reference. A cell is looked up under the text of the reference, in large letters.
-- So two spellings of a position show the same where they are one text in large letters, where the
-- position is off the grid, and where neither is the key of an entry; they need not else.
import Worksheet.Proofs.Recalculation.Likeness
import Worksheet.Proofs.Recalculation.Loopless
import Worksheet.Proofs.Wiring.Reaching

open Relation

namespace Worksheet

open Worksheet.Text (upper)

def Cell.naming (c : Cell) (reference : String) : Cell :=
  { c with formula := some ("=" ++ reference) }

theorem Cell.formula?_naming (c : Cell) (reference : String) :
    (c.naming reference).formula? = some ("=" ++ reference) := formula?_of_sign rfl

variable {settings : Settings} {t : Table} {r : Recalculated} {w v : Wiring} {order : List String}
  {key reference : String} {letters digits : List Char} {p : Position}

/-- A table with another cell for an entry differs from it in this entry. -/
theorem Table.exists_replace_split {e : String × Cell} (member : e ∈ t.cells.entries) :
    ∃ before after, (∀ c, (e.1, c) ∉ before) ∧
      ∀ c, (t.replace e.1 c).cells.entries = before ++ (e.1, c) :: after := by
  have present : e.1 ∈ Entries.keys t.cells.entries := List.mem_map_of_mem member
  obtain ⟨before, _, after, _, fresh, replaced⟩ := Entries.exists_put_split present
  exact ⟨before, after, fun c again => fresh (List.mem_map.2 ⟨(e.1, c), again, rfl⟩),
    replaced⟩

theorem IsReference.contains_upper (h : IsReference reference letters digits)
    (named : Position.ofKey reference = .ok p) (b : Bounds) :
    b.contains (upper reference) = .ok (b.holds p) := by
  rw [Bounds.contains, h.ofKey_upper, named]

/-- A formula that names nothing but a key on the grid that has no entry is not flagged. -/
theorem IsReference.clear_of_blank (h : IsReference reference letters digits)
    (named : Position.ofKey reference = .ok p) {limit : Formula.Limit} {bounds : Bounds}
    {entries : List (String × Cell)} (inv : w.Complete limit bounds entries) {e : String × Cell}
    (first : first? entries key = some e) (names : e.2.references limit = [upper reference])
    (on : bounds.holds p = true) (blank : first? entries (upper reference) = none) :
    key ∉ w.flagged := by
  refine inv.clear_of_no_way_back fun s refers => ?_
  obtain ⟨e', first', member⟩ := refers
  cases first.symm.trans first'
  rw [names, List.mem_singleton] at member
  rw [member]
  refine ⟨(h.contains_upper named bounds).trans (congrArg Except.ok on), fun back => ?_⟩
  have same := Wiring.eq_of_leads blank back
  rw [← same, first] at blank
  cases blank

theorem Table.Pass.read_blank (pass : t.Pass settings r w v order)
    (blank : first? t.cells.entries reference = none) (edge : w.graph.Edge reference key) :
    v.read reference = .ok .zero := by
  have node : v.graph.contains reference = true := by
    rw [pass.settled.graph]
    exact (w.graph.mem_keys_iff reference).1 edge.source_mem
  have slot : v.slots.get? reference = none := by
    have start := pass.wired.slots reference
    rw [blank, Option.map_none] at start
    refine (pass.settled.kept reference ?_).trans start
    intro s found
    cases start.symm.trans found
  rw [Wiring.read, if_pos node, slot]
  rfl

theorem Table.Pass.shows_zero (pass : t.Pass settings r w v order) {e : String × Cell}
    (first : first? t.cells.entries (upper e.1) = some e)
    (h : IsReference reference letters digits) (written : e.2.formula? = some ("=" ++ reference))
    (clear : upper e.1 ∉ w.flagged) (read : v.read (upper reference) = .ok .zero) :
    r.table.cells.get? e.1 = some ⟨some "0", some ("=" ++ reference), none⟩ := by
  have shown : Value.zero.display = .ok "0" := eq_ok_of_toOption (by decide +kernel)
  refine pass.shows_number first written (h.parse_eq settings.limit) clear ?_ shown
  rw [Formula.outcome_eq]
  exact congrArg Formula.settle read

/-- Where no entry has a key that is on the grid, a reference to it shows a zero. It shows a bad
reference where the key is off the grid, and at an entry whose key an earlier one has. -/
theorem Table.Pass.shows_reference (pass : t.Pass settings r w v order) {e : String × Cell}
    (member : e ∈ t.cells.entries) (h : IsReference reference letters digits)
    (written : e.2.formula? = some ("=" ++ reference)) (named : Position.ofKey reference = .ok p)
    (blank : t.bounds.holds p = true → first? t.cells.entries (upper reference) = none) :
    ∃ c, r.table.cells.get? e.1 = some c ∧ (c.value, c.error) =
      if first? t.cells.entries (upper e.1) = some e ∧ t.bounds.holds p = true then
        (some "0", none)
      else (none, some "#REF!") := by
  have names := h.references_eq settings.limit written
  by_cases first : first? t.cells.entries (upper e.1) = some e
  · have refers : Refers settings.limit t.cells.entries (upper e.1) (upper reference) :=
      ⟨e, first, by simp [names]⟩
    cases on : t.bounds.holds p with
    | false =>
      have outside := (h.contains_upper named t.bounds).trans (congrArg Except.ok on)
      have flag := pass.wired.flagged_of_outside refers outside
      exact ⟨_, pass.shows_flagged first written (h.parse_eq settings.limit) flag, by simp⟩
    | true =>
      have clear := h.clear_of_blank named pass.wired first names on (blank on)
      have edge := (pass.wired.handled _ _ refers).edge pass.wired.toWired clear
      have read := pass.read_blank (blank on) edge
      exact ⟨_, pass.shows_zero first h written clear read, by simp [first]⟩
  · exact ⟨_, pass.shows_repeated member first written, by simp [first]⟩

theorem IsReference.idle (h : IsReference reference letters digits)
    (named : Position.ofKey reference = .ok p) {limit : Formula.Limit} {bounds : Bounds}
    {before more : List (String × Cell)} (inv : w.Wired limit bounds before)
    (blank : bounds.holds p = true → ∀ e ∈ before ++ more, upper e.1 ≠ upper reference) :
    Wiring.Idle (fun a => ∃ e ∈ before ++ more, upper e.1 = a) bounds w (upper reference) := by
  refine ⟨_, h.contains_upper named bounds, ?_⟩
  rintro on _ ⟨e, member, rfl⟩ way
  have absent : first? before (upper reference) = none :=
    first?_eq_none_iff.2 fun e' front => blank on e' (List.mem_append_left _ front)
  exact blank on e member (Wiring.eq_of_leads absent (inv.refers_of_reaches way))

theorem Cell.naming_alike {reference' : String} {letters' digits' : List Char} (c : Cell)
    (h : IsReference reference letters digits) (h' : IsReference reference' letters' digits')
    (same : upper reference = upper reference') (limit : Formula.Limit) :
    (c.naming reference).Alike limit (c.naming reference') where
  value := rfl
  error := rfl
  formula := by
    rw [Cell.formula?_naming, Cell.formula?_naming]
    rfl
  parsed := by
    unfold Cell.parsed?
    rw [Cell.formula?_naming, Cell.formula?_naming]
    simp only [Option.bind_some, h.parse_eq, h'.parse_eq, Except.toOption]
    refine .some ⟨?_, fun lookup => ?_⟩
    · simp [Formula.references_eq, Formula.Expr.references, Formula.Expr.cells, same]
    · simp [Formula.outcome_eq, Formula.Expr.result, Formula.Atom.result, same]

theorem Table.alike_replace {limit : Formula.Limit} {e : String × Cell} {c c' : Cell}
    (member : e ∈ t.cells.entries) (alike : c.Alike limit c') :
    (t.replace e.1 c).Alike limit (t.replace e.1 c') where
  bounds := rfl
  entries := by
    obtain ⟨before, after, _, entries⟩ := Table.exists_replace_split member
    have same : ∀ es, List.Forall₂ (EntryAlike limit) es es := fun es =>
      List.forall₂_same.2 fun e _ => ⟨rfl, .refl e.2⟩
    rw [entries, entries]
    exact List.rel_append (same before) (.cons ⟨rfl, alike⟩ (same after))

theorem Table.blank_replace {e : String × Cell} (member : e ∈ t.cells.entries) (c : Cell)
    (blank : ∀ k ∈ t.cells.keys, upper k ≠ key) :
    ∀ e' ∈ (t.replace e.1 c).cells.entries, upper e'.1 ≠ key := by
  intro e' member'
  apply blank
  rw [← Table.keys_replace member c]
  exact List.mem_map_of_mem member'

variable {reference' : String} {letters' digits' : List Char}

/-- Where a table with a reference is recalculated, so it is with another spelling of the position in
its place, if no entry has either for its key or they are off the grid. -/
theorem Table.exists_recalculated_of_blank {e : String × Cell} (member : e ∈ t.cells.entries)
    (h : IsReference reference letters digits) (h' : IsReference reference' letters' digits')
    (named : Position.ofKey reference = .ok p) (named' : Position.ofKey reference' = .ok p)
    (blank : t.bounds.holds p = true → ∀ k ∈ t.cells.keys, upper k ≠ upper reference)
    (blank' : t.bounds.holds p = true → ∀ k ∈ t.cells.keys, upper k ≠ upper reference')
    (c : Cell) (result : (t.replace e.1 (c.naming reference)).recalculate settings = .ok r) :
    ∃ r', (t.replace e.1 (c.naming reference')).recalculate settings = .ok r' := by
  obtain ⟨w, _, _, wired, _⟩ := Table.exists_pass result
  obtain ⟨before, after, _, entries⟩ := Table.exists_replace_split member
  have free : ∀ s, (∀ k ∈ t.cells.keys, upper k ≠ s) →
      ∀ e' ∈ before ++ (e.1, c.naming reference) :: after, upper e'.1 ≠ s := fun s none =>
    entries (c.naming reference) ▸ Table.blank_replace member _ none
  have names := h.references_eq settings.limit (c.formula?_naming reference)
  have names' := h'.references_eq settings.limit (c.formula?_naming reference')
  unfold Wiring.ofCells at wired
  rw [entries] at wired
  obtain ⟨w', wired'⟩ := Wiring.exists_run_of_idle (e := (e.1, c.naming reference))
    (d := (e.1, c.naming reference')) rfl names names'
    (fun u inv => h.idle named inv fun on => free _ (blank on))
    (fun u inv => h'.idle named' inv fun on => free _ (blank' on)) wired
  refine Table.exists_recalculated (w := w') ?_
  unfold Wiring.ofCells
  rw [entries]
  exact wired'

/-- What a spelling shows hangs on the position alone, if no entry has the spelling for its key. -/
theorem Table.shows_spelling {e : String × Cell} (member : e ∈ t.cells.entries)
    {before after : List (String × Cell)} (fresh : ∀ c, (e.1, c) ∉ before)
    (entries : ∀ c, (t.replace e.1 c).cells.entries = before ++ (e.1, c) :: after)
    (h : IsReference reference letters digits) (named : Position.ofKey reference = .ok p)
    (blank : t.bounds.holds p = true → ∀ k ∈ t.cells.keys, upper k ≠ upper reference) (c : Cell)
    (result : (t.replace e.1 (c.naming reference)).recalculate settings = .ok r) :
    ∃ d, r.table.cells.get? e.1 = some d ∧ (d.value, d.error) =
      if first? before (upper e.1) = none ∧ t.bounds.holds p = true then (some "0", none)
      else (none, some "#REF!") := by
  obtain ⟨w, v, order, _, pass⟩ := Table.exists_pass result
  have here : (e.1, c.naming reference) ∈ (t.replace e.1 (c.naming reference)).cells.entries :=
    Roster.mem_of_get? (Roster.get?_put_self ..)
  obtain ⟨d, found, shown⟩ := pass.shows_reference here h (c.formula?_naming reference) named fun on =>
    first?_eq_none_iff.2 (Table.blank_replace member _ (blank on))
  simp only [entries, first?_middle_iff (fresh _)] at shown
  exact ⟨d, found, shown⟩

/-- Two spellings of a position show the same, and one is recalculated where the other is: if
they are one text in large letters, if they are off the grid, or if no entry has either for its
key. -/
theorem spellings_show_the_same {e : String × Cell} (member : e ∈ t.cells.entries)
    (h : IsReference reference letters digits) (h' : IsReference reference' letters' digits')
    (named : Position.ofKey reference = .ok p) (named' : Position.ofKey reference' = .ok p)
    (alike : upper reference = upper reference' ∨ t.bounds.holds p = false ∨
      ∀ k ∈ t.cells.keys, upper k ≠ upper reference ∧ upper k ≠ upper reference') (c : Cell)
    (result : (t.replace e.1 (c.naming reference)).recalculate settings = .ok r) :
    ∃ r' d d', (t.replace e.1 (c.naming reference')).recalculate settings = .ok r' ∧
      r.table.cells.get? e.1 = some d ∧ r'.table.cells.get? e.1 = some d' ∧
      d.value = d'.value ∧ d.error = d'.error := by
  by_cases same : upper reference = upper reference'
  · have cells := Cell.naming_alike c h h' same settings.limit
    obtain ⟨r', result', shown⟩ := (Table.alike_replace member cells).recalculate result
    rw [Table.keys_replace member, Table.keys_replace member, List.forall₂_same] at shown
    obtain ⟨d, d', found, found', value, error⟩ := shown e.1 (List.mem_map_of_mem member)
    exact ⟨r', d, d', result', found, found', value, error⟩
  · have blank : t.bounds.holds p = true →
        ∀ k ∈ t.cells.keys, upper k ≠ upper reference ∧ upper k ≠ upper reference' := by
      intro on
      rcases alike with one | off | none
      · exact absurd one same
      · exact absurd (on.symm.trans off) (by decide)
      · exact none
    have left := fun on k known => (blank on k known).1
    have right := fun on k known => (blank on k known).2
    obtain ⟨before, after, fresh, entries⟩ := Table.exists_replace_split member
    obtain ⟨r', result'⟩ :=
      Table.exists_recalculated_of_blank member h h' named named' left right c result
    obtain ⟨d, found, shown⟩ := Table.shows_spelling member fresh entries h named left c result
    obtain ⟨d', found', shown'⟩ :=
      Table.shows_spelling member fresh entries h' named' right c result'
    obtain ⟨value, error⟩ := Prod.mk.inj (shown.trans shown'.symm)
    exact ⟨r', d, d', result', found, found', value, error⟩

/-- A table with a value at `A1`, and with a cell for a formula at `B1`. -/
def Table.pointing : Table where
  rows := 2
  columns := .ofEntries [("A", ⟨"", []⟩), ("B", ⟨"", []⟩)]
  cells := .ofEntries [("A1", ⟨some "5", none, none⟩), ("B1", ⟨none, none, none⟩)]

/-- Two spellings of a position where nothing stands. -/
theorem spellings_show_the_same_of_pointing :
    ∃ r r' d d',
      (Table.pointing.replace "B1" (Cell.naming ⟨none, none, none⟩ "A2")).recalculate .usual =
        .ok r ∧
      (Table.pointing.replace "B1" (Cell.naming ⟨none, none, none⟩ "a02")).recalculate .usual =
        .ok r' ∧
      r.table.cells.get? "B1" = some d ∧ r'.table.cells.get? "B1" = some d' ∧
      d.value = d'.value ∧ d.error = d'.error := by
  have member : ("B1", ⟨none, none, none⟩) ∈ Table.pointing.cells.entries := by decide +kernel
  have short : IsReference "A2" ['A'] ['2'] := by decide
  have long : IsReference "a02" ['a'] ['0', '2'] := by decide
  have named : (Position.ofKey "A2").toOption = some ⟨"A", 2⟩ := by decide +kernel
  have named' : (Position.ofKey "a02").toOption = some ⟨"A", 2⟩ := by decide +kernel
  have free : ∀ k ∈ Table.pointing.cells.keys, upper k ≠ upper "A2" ∧ upper k ≠ upper "a02" := by
    decide +kernel
  have returns : ((Table.pointing.replace "B1" (Cell.naming ⟨none, none, none⟩ "A2")).recalculate
      .usual).toOption.isSome = true := by decide +kernel
  obtain ⟨r, result⟩ := Option.isSome_iff_exists.1 returns
  obtain ⟨r', d, d', rest⟩ := spellings_show_the_same member short long (eq_ok_of_toOption named)
    (eq_ok_of_toOption named') (Or.inr (Or.inr free)) _ (eq_ok_of_toOption result)
  exact ⟨r, r', d, d', eq_ok_of_toOption result, rest⟩

/-- Where there is a cell at the position, a zero before the row number hides it: one spelling
shows its value, the other none of it. -/
theorem spellings_show_apart_of_pointing :
    IsReference "A1" ['A'] ['1'] ∧ IsReference "A01" ['A'] ['0', '1'] ∧
      Position.ofKey "A1" = .ok ⟨"A", 1⟩ ∧ Position.ofKey "A01" = .ok ⟨"A", 1⟩ ∧
      ∃ r r',
        (Table.pointing.replace "B1" (Cell.naming ⟨none, none, none⟩ "A1")).recalculate .usual =
          .ok r ∧
        (Table.pointing.replace "B1" (Cell.naming ⟨none, none, none⟩ "A01")).recalculate .usual =
          .ok r' ∧
        r.table.cells.get? "B1" = some ⟨some "5", some "=A1", none⟩ ∧
        r'.table.cells.get? "B1" = some ⟨some "0", some "=A01", none⟩ := by
  have shown : ((Table.pointing.replace "B1" (Cell.naming ⟨none, none, none⟩ "A1")).recalculate
      .usual).toOption.bind (fun r => r.table.cells.get? "B1") =
        some ⟨some "5", some "=A1", none⟩ := by decide +kernel
  have shown' : ((Table.pointing.replace "B1" (Cell.naming ⟨none, none, none⟩ "A01")).recalculate
      .usual).toOption.bind (fun r => r.table.cells.get? "B1") =
        some ⟨some "0", some "=A01", none⟩ := by decide +kernel
  have named : (Position.ofKey "A1").toOption = some ⟨"A", 1⟩ := by decide +kernel
  have named' : (Position.ofKey "A01").toOption = some ⟨"A", 1⟩ := by decide +kernel
  obtain ⟨r, result, found⟩ := Option.bind_eq_some_iff.1 shown
  obtain ⟨r', result', found'⟩ := Option.bind_eq_some_iff.1 shown'
  exact ⟨by decide, by decide, eq_ok_of_toOption named, eq_ok_of_toOption named', r, r',
    eq_ok_of_toOption result, eq_ok_of_toOption result', found, found'⟩

end Worksheet
