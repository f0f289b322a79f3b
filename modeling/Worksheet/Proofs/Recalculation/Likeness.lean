-- Tables that are alike: what their entries are computed from is the same one by one, though keys
-- and formulas may be spelled in different ways. The two are wired side by side, reference by
-- reference, and under each key the same comes back.
import Mathlib.Data.List.Forall2
import Worksheet.Proofs.Recalculation.Completion
import Worksheet.Proofs.Wiring.Guarding

namespace Worksheet

open Worksheet.Text (upper)

/-! ## Entries alike -/

/-- Two cells are alike: they hold the same value and the same error, and formulas that are alike. -/
structure Cell.Alike (limit : Formula.Limit) (c d : Cell) : Prop where
  value : c.value = d.value
  error : c.error = d.error
  formula : c.formula?.isSome = d.formula?.isSome
  parsed : Option.Rel Formula.Alike (c.parsed? limit) (d.parsed? limit)

/-- Two entries are alike: they go by one key, and their cells are alike. -/
structure EntryAlike (limit : Formula.Limit) (e d : String × Cell) : Prop where
  key : upper e.1 = upper d.1
  cell : e.2.Alike limit d.2

variable {limit : Formula.Limit} {c d : Cell}

theorem Cell.Alike.refl (c : Cell) : c.Alike limit c where
  value := rfl
  error := rfl
  formula := rfl
  parsed := by
    cases c.parsed? limit with
    | none => exact .none
    | some f => exact .some (.refl f)

theorem Cell.Alike.references_eq (h : c.Alike limit d) : c.references limit = d.references limit := by
  unfold Cell.references
  rcases cases_of_rel h.parsed with ⟨left, right⟩ | ⟨f, g, left, right, alike⟩ <;> rw [left, right]
  exact alike.references

theorem Cell.Alike.unread_iff (h : c.Alike limit d) :
    c.parsed? limit = none ↔ d.parsed? limit = none := by
  rcases cases_of_rel h.parsed with ⟨left, right⟩ | ⟨f, g, left, right, _⟩ <;> rw [left, right]
  simp

theorem EntryAlike.start {e e' : String × Cell} (h : EntryAlike limit e e') :
    (Slot.start limit e).Alike (Slot.start limit e') := by
  have outcome : (Slot.start limit e).outcome = (Slot.start limit e').outcome := by
    simp only [Slot.start, h.cell.formula, h.cell.unread_iff]
  refine ⟨?_, ?_, outcome⟩
  · unfold Slot.due
    rw [outcome]
    split
    · exact h.cell.parsed
    · exact .none
  · have literal : Wiring.literalValue e.2 = Wiring.literalValue e'.2 := by
      rw [Wiring.literalValue, Wiring.literalValue, h.cell.value]
    have formula : (Slot.start limit e).isFormula = (Slot.start limit e').isFormula :=
      h.cell.formula
    unfold Wiring.slotValue
    rw [outcome, formula]
    split
    · rfl
    · rfl
    · exact ite_congr rfl (fun _ => rfl) fun _ => literal

theorem Slot.Alike.settle {s s' : Slot} (_ : s.Alike s') (o : Outcome) :
    (s.settle o).Alike (s'.settle o) where
  due := .none
  value := by cases o <;> rfl
  outcome := rfl

theorem first?_alike {es ds : List (String × Cell)} (alike : List.Forall₂ (EntryAlike limit) es ds)
    (key : String) : Option.Rel (EntryAlike limit) (first? es key) (first? ds key) := by
  induction alike with
  | nil => exact .none
  | @cons e d es ds first later ih =>
    unfold first? at ih ⊢
    rw [List.find?_cons, List.find?_cons, ← first.key]
    by_cases here : upper e.1 = key
    · simp only [here, decide_true]
      exact .some first
    · simp only [here, decide_false]
      exact ih

/-! ## Side by side -/

theorem foldlM_forall₂ {α β γ δ ε : Type} {R : β → γ → Prop} {S : α → δ → Prop}
    {f : β → α → Except ε β} {g : γ → δ → Except ε γ}
    (step : ∀ x y a d x', R x y → S a d → f x a = .ok x' → ∃ y', g y d = .ok y' ∧ R x' y')
    {as : List α} {ds : List δ} (items : List.Forall₂ S as ds) {b b' : β} {c : γ} (start : R b c)
    (run : as.foldlM f b = .ok b') : ∃ c', ds.foldlM g c = .ok c' ∧ R b' c' := by
  induction items generalizing b c with
  | nil =>
    cases run
    exact ⟨c, rfl, start⟩
  | @cons a d as ds first later ih =>
    rw [List.foldlM_cons] at run
    obtain ⟨x, ran, rest⟩ := exists_of_bind run
    obtain ⟨y, ran', next⟩ := step b c a d x start first ran
    obtain ⟨c', last, related⟩ := ih next rest
    refine ⟨c', ?_, related⟩
    rw [List.foldlM_cons, ran']
    exact last

namespace Wiring

/-- Two wirings under way side by side: one guarded graph, the same keys flagged, and slots at the
same keys. -/
structure SideBySide (w v : Wiring) : Prop where
  guarded : w.graph.Guarded
  graph : w.graph = v.graph
  flagged : w.flagged = v.flagged
  known : ∀ key, w.slots.contains key = v.slots.contains key

variable {w v w' : Wiring} {bounds : Bounds} {key : String}

theorem SideBySide.tell (h : SideBySide w v) (n : Note) : SideBySide (w.tell n) (v.tell n) where
  guarded := by simpa using h.guarded
  graph := by simpa using h.graph
  flagged := by simp [h.flagged]
  known k := by rw [contains_tell, contains_tell, h.known]

theorem SideBySide.refer (h : SideBySide w v) {reference : String}
    (ran : Wiring.refer bounds key w reference = .ok w') :
    ∃ v', Wiring.refer bounds key v reference = .ok v' ∧ SideBySide w' v' := by
  have guarded := refer_guarded h.guarded ran
  -- The graphs are one, so the search for a loop and the test of the grid end the same in both.
  rcases refer_cases h.guarded.consistent_acyclic.1 ran with ⟨path, found, _, rfl⟩ |
    ⟨none, _, inside, g, added, rfl⟩ | ⟨none, outside, rfl⟩
  · exact ⟨_, refer_of_loop (h.graph ▸ found), h.tell _⟩
  · exact ⟨_, refer_of_edge (h.graph ▸ none) inside (h.graph ▸ added),
      ⟨guarded, rfl, h.flagged, h.known⟩⟩
  · exact ⟨_, refer_of_stray (h.graph ▸ none) outside, h.tell _⟩

theorem SideBySide.enter {settings : Settings} (h : SideBySide w v) {e d : String × Cell}
    (alike : EntryAlike settings.limit e d) (ran : Wiring.enter settings bounds w e = .ok w') :
    ∃ v', Wiring.enter settings bounds v d = .ok v' ∧ SideBySide w' v' := by
  have guarded := enter_guarded h.guarded ran
  obtain ⟨repeats, extra, plainRepeats, plain, step⟩ := enter_eq settings bounds e
  obtain ⟨repeats', extra', plainRepeats', plain', step'⟩ := enter_eq settings bounds d
  rw [step] at ran
  rw [step', ← alike.key, ← h.known, ← h.graph, ← alike.cell.references_eq]
  split at ran
  · rename_i present
    cases ran
    refine ⟨_, if_pos present, guarded, rfl, ?_, h.known⟩
    rw [flagged_plain plainRepeats, flagged_plain plainRepeats', h.flagged]
  · rename_i absent
    rw [if_neg absent]
    have same : ∀ items : List String, List.Forall₂ Eq items items := fun items =>
      List.forall₂_same.2 fun _ _ => rfl
    refine foldlM_forall₂ (R := SideBySide) ?_ (same _) ?_ ran
    · rintro x y a _ x' beside rfl stepped
      exact beside.refer stepped
    · refine ⟨h.guarded.ensure _, rfl, ?_, fun k => ?_⟩
      · rw [flagged_plain plain, flagged_plain plain', h.flagged]
      · rw [Roster.contains_put, Roster.contains_put, h.known]

theorem sideBySide_empty : SideBySide empty empty := ⟨.empty, rfl, rfl, fun _ => rfl⟩

/-- Entries that are alike are wired side by side. -/
theorem ofCells_alike {settings : Settings} {cells cells' : Roster Cell}
    (alike : List.Forall₂ (EntryAlike settings.limit) cells.entries cells'.entries)
    (wired : ofCells settings bounds cells = .ok w) :
    ∃ v, ofCells settings bounds cells' = .ok v ∧ SideBySide w v :=
  foldlM_forall₂ (fun _ _ _ _ _ beside same ran => beside.enter same ran) alike sideBySide_empty
    wired

/-- Wirings of entries that are alike have slots that are alike. -/
theorem SideBySide.alikeAt {bounds' : Bounds} {es ds : List (String × Cell)}
    (h : SideBySide w v) (inv : Complete limit bounds es w) (inv' : Complete limit bounds' ds v)
    (alike : List.Forall₂ (EntryAlike limit) es ds) (key : String) : w.AlikeAt v key := by
  unfold AlikeAt
  rw [inv.slots, inv'.slots, ← h.flagged]
  rcases cases_of_rel (first?_alike alike key) with ⟨left, right⟩ | ⟨e, d, left, right, alike⟩ <;>
    rw [left, right]
  · exact .none
  · by_cases flag : key ∈ w.flagged
    · simp only [if_pos flag, Option.map_some]
      exact .some (alike.start.settle _)
    · simp only [if_neg flag, Option.map_some]
      exact .some alike.start

/-- Where slots that are alike are changed alike, their outcomes are the same. -/
theorem ChangedAlike.outcome_eq {w u v v' : Wiring} {s s' : Slot} (h : w.ChangedAlike u v v' key)
    (alike : w.AlikeAt u key) (found : v.slots.get? key = some s)
    (found' : v'.slots.get? key = some s') : s.outcome = s'.outcome := by
  obtain ⟨o, left, right⟩ := h
  rw [found] at left
  rw [found'] at right
  rcases alike.cases with ⟨here, _⟩ | ⟨t, t', here, there, alike⟩
  · rw [here] at left
    cases left
  · rw [here] at left
    rw [there] at right
    cases left
    cases right
    rcases o with _ | o
    · exact alike.outcome
    · rfl

end Wiring

/-! ## Tables -/

/-- Two tables are alike: they have one grid, and their entries are alike one by one. -/
structure Table.Alike (limit : Formula.Limit) (t u : Table) : Prop where
  bounds : t.bounds = u.bounds
  entries : List.Forall₂ (EntryAlike limit) t.cells.entries u.cells.entries

theorem first?_eq_some_iff_of_alike {es ds : List (String × Cell)}
    (alike : List.Forall₂ (EntryAlike limit) es ds) (nodup : (Entries.keys es).Nodup)
    (nodup' : (Entries.keys ds).Nodup) {e d : String × Cell} (member : (e, d) ∈ es.zip ds) :
    first? es (upper e.1) = some e ↔ first? ds (upper d.1) = some d := by
  have pair : EntryAlike limit e d := List.forall₂_zip alike member
  induction alike with
  | nil => cases member
  | @cons a b es ds first later ih =>
    simp only [Entries.keys, List.map_cons, List.nodup_cons] at nodup nodup'
    have skip : ∀ (x : String × Cell) (xs : List (String × Cell)) (key : String),
        first? (x :: xs) key = if upper x.1 = key then some x else first? xs key := by
      intro x xs key
      unfold first?
      rw [List.find?_cons]
      by_cases here : upper x.1 = key <;> simp [here]
    rw [skip, skip, ← first.key, ← pair.key]
    rcases List.mem_cons.1 member with here | rest
    · cases here
      simp
    · have later : first? es (upper e.1) = some e ↔ first? ds (upper e.1) = some d := by
        simpa only [← pair.key] using ih nodup.2 nodup'.2 rest
      -- An entry that stands later as well would have its key twice.
      have left : a ≠ e := by
        rintro rfl
        exact nodup.1 (List.mem_map_of_mem (List.of_mem_zip rest).1)
      have right : b ≠ d := by
        rintro rfl
        exact nodup'.1 (List.mem_map_of_mem (List.of_mem_zip rest).2)
      split
      · simp [left, right]
      · exact later

theorem resultCell_same {text text' key key' : String} {o : Outcome} {c c' : Cell}
    (h : Wiring.resultCell text key (some o) = .ok c)
    (h' : Wiring.resultCell text' key' (some o) = .ok c') :
    c.value = c'.value ∧ c.error = c'.error := by
  rcases o with code | x
  · cases h
    cases h'
    exact ⟨rfl, rfl⟩
  · obtain ⟨shown, displayed, last⟩ := exists_of_bind h
    obtain ⟨shown', displayed', last'⟩ := exists_of_bind h'
    cases displayed.symm.trans displayed'
    cases last
    cases last'
    exact ⟨rfl, rfl⟩

variable {settings : Settings} {t u : Table} {r r' : Recalculated} {w w' v v' : Wiring}
  {order order' : List String}

/-- Entries that are alike show the same, where the slots are changed alike. -/
theorem Table.Alike.shows (alike : t.Alike settings.limit u) (pass : t.Pass settings r w v order)
    (pass' : u.Pass settings r' w' v' order') (slots : ∀ key, w.AlikeAt w' key)
    (changed : ∀ key, w.ChangedAlike w' v v' key) {e d : String × Cell}
    (member : (e, d) ∈ t.cells.entries.zip u.cells.entries) :
    ∃ c c', r.table.cells.get? e.1 = some c ∧ r'.table.cells.get? d.1 = some c' ∧
      c.value = c'.value ∧ c.error = c'.error := by
  have pair : EntryAlike settings.limit e d := List.forall₂_zip alike.entries member
  obtain ⟨member₁, member₂⟩ := List.of_mem_zip member
  have formula := pair.cell.formula
  rcases written : e.2.formula? with _ | text <;>
    rcases written' : d.2.formula? with _ | text' <;> rw [written, written'] at formula
  · obtain ⟨c, final, found⟩ := Roster.get?_traverse pass.cells (t.cells.get?_of_mem member₁)
    obtain ⟨c', final', found'⟩ := Roster.get?_traverse pass'.cells (u.cells.get?_of_mem member₂)
    obtain rfl := (Wiring.finalCell_input final).2 written
    obtain rfl := (Wiring.finalCell_input final').2 written'
    exact ⟨e.2, d.2, found, found', pair.cell.value, pair.cell.error⟩
  · cases formula
  · cases formula
  · have both := first?_eq_some_iff_of_alike alike.entries t.cells.nodup u.cells.nodup member
    -- A key that an earlier entry has shows a bad reference, whatever its formula comes to.
    by_cases first : first? t.cells.entries (upper e.1) = some e
    · obtain ⟨s, o, c, slot, outcome, _, found, result⟩ := pass.exists_slot first written
      obtain ⟨s', o', c', slot', outcome', _, found', result'⟩ :=
        pass'.exists_slot (both.1 first) written'
      rw [← pair.key] at slot'
      have same := (changed (upper e.1)).outcome_eq (slots (upper e.1)) slot slot'
      rw [outcome, outcome', Option.some.injEq] at same
      exact ⟨c, c', found, found', resultCell_same result (same ▸ result')⟩
    · exact ⟨_, _, pass.shows_repeated member₁ first written,
        pass'.shows_repeated member₂ (mt both.2 first) written', rfl, rfl⟩

/-- Where a table is recalculated one that is alike is, too, and under each key it comes back with
the same value and the same error. -/
theorem Table.Alike.recalculate (alike : t.Alike settings.limit u)
    (h : t.recalculate settings = .ok r) :
    ∃ r', u.recalculate settings = .ok r' ∧ List.Forall₂ (fun key key' =>
      ∃ c c', r.table.cells.get? key = some c ∧ r'.table.cells.get? key' = some c' ∧
        c.value = c'.value ∧ c.error = c'.error) t.cells.keys u.cells.keys := by
  obtain ⟨w, v, order, wired, pass⟩ := Table.exists_pass h
  obtain ⟨w', wired', beside⟩ := Wiring.ofCells_alike alike.entries wired
  rw [alike.bounds] at wired'
  obtain ⟨r', h'⟩ := Table.exists_recalculated wired'
  obtain ⟨w'', v', order', wired'', pass'⟩ := Table.exists_pass h'
  cases wired'.symm.trans wired''
  have slots := beside.alikeAt pass.wired pass'.wired alike.entries
  have changed := Wiring.Settled.alike_of_seen pass.wired.ready pass'.wired.ready
    (fun key _ => slots key) pass.isOrder pass'.isOrder pass.settled pass'.settled
    (K := fun _ => True) fun _ _ _ _ _ _ _ _ => Or.inl trivial
  refine ⟨r', h', ?_⟩
  unfold Roster.keys Entries.keys
  rw [List.forall₂_map_left_iff, List.forall₂_map_right_iff, List.forall₂_iff_zip]
  refine ⟨alike.entries.length_eq, fun member => ?_⟩
  exact alike.shows pass pass' slots (fun key => changed key trivial) member

end Worksheet
