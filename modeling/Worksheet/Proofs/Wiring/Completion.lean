-- How a wiring ends. A reference whose row number has too many digits to be read stops it, unless
-- the reference closes a loop and so is never looked up on the grid. Nothing else does.
import Worksheet.Proofs.Wiring.Loops

open Relation

namespace Worksheet

open Worksheet.Text (strip)

/-- How many digits the row number of a key has. A text that is no key has none. -/
def digitCount (key : String) : Nat := ((splitKey? (strip key).toList).map (·.2.length)).getD 0

/-- The digits of a row number are counted before the number is read. -/
theorem Position.ofKey_cases (key : String) :
    (Fault.maxRowDigits < digitCount key ∧
      ofKey key = .error (.rowDigits (digitCount key))) ∨
    (digitCount key ≤ Fault.maxRowDigits ∧
      (ofKey key = .error (.formula (.badKey key)) ∨ ∃ p, ofKey key = .ok p)) := by
  unfold ofKey digitCount
  rcases splitKey? (strip key).toList with _ | ⟨letters, digits⟩
  · exact Or.inr ⟨Nat.zero_le _, Or.inl rfl⟩
  · by_cases long : Fault.maxRowDigits < digits.length
    · exact Or.inl ⟨long, if_pos long⟩
    · exact Or.inr ⟨Nat.le_of_not_lt long, Or.inr ⟨_, if_neg long⟩⟩

theorem Bounds.contains_of_long (bounds : Bounds) {key : String}
    (long : Fault.maxRowDigits < digitCount key) :
    bounds.contains key = .error (.rowDigits (digitCount key)) := by
  rcases Position.ofKey_cases key with ⟨_, stopped⟩ | ⟨short, _⟩
  · rw [contains, stopped]
  · omega

theorem Bounds.exists_contains (bounds : Bounds) {key : String}
    (short : digitCount key ≤ Fault.maxRowDigits) : ∃ inside, bounds.contains key = .ok inside := by
  unfold contains
  rcases Position.ofKey_cases key with ⟨long, _⟩ | ⟨_, bad | ⟨p, named⟩⟩
  · omega
  · rw [bad]
    exact ⟨false, rfl⟩
  · rw [named]
    exact ⟨_, rfl⟩

/-- The fault that a reference of the entries brings, as its row number has too many digits. -/
def Fault.OfLongRow (limit : Formula.Limit) (entries : List (String × Cell))
    (fault : Fault) : Prop :=
  ∃ key reference, Refers limit entries key reference ∧ maxRowDigits < digitCount reference ∧
    fault = .rowDigits (digitCount reference)

theorem Fault.OfLongRow.append {limit : Formula.Limit} {entries : List (String × Cell)}
    {fault : Fault}
    (h : fault.OfLongRow limit entries) (more : List (String × Cell)) :
    fault.OfLongRow limit (entries ++ more) := by
  obtain ⟨key, reference, refers, long, same⟩ := h
  exact ⟨key, reference, refers.append more, long, same⟩

namespace Wiring

variable {limit : Formula.Limit} {bounds : Bounds} {entries : List (String × Cell)} {w : Wiring}

/-- A reference is wired, or the digits of its row number stop the wiring. -/
theorem Wired.refer_ends_or_stops (inv : Wired limit bounds entries w) {key reference : String}
    (refers : Refers limit entries key reference) :
    (∃ w', Wiring.refer bounds key w reference = .ok w') ∨
      ∃ fault, Wiring.refer bounds key w reference = .error fault ∧
        fault.OfLongRow limit entries := by
  by_cases allows : Allows bounds key w reference
  · exact Or.inl (allows.exists_refer inv.consistent (inv.node refers))
  · obtain ⟨apart, unread⟩ := not_or.1 allows
    have long : Fault.maxRowDigits < digitCount reference := by
      by_contra short
      exact unread (bounds.exists_contains (Nat.le_of_not_lt short))
    rcases w.graph.cyclePath_spec inv.consistent reference key with ⟨_, _, isPath⟩ | ⟨none, _⟩
    · exact absurd isPath.reaches apart
    · refine Or.inr ⟨_, ?_, key, reference, refers, long, rfl⟩
      unfold Wiring.refer
      rw [none]
      simp only [bind, Except.bind, bounds.contains_of_long long]

theorem Wired.references_end_or_stop (inv : Wired limit bounds entries w) {key : String}
    {items : List String} (here : ∀ r ∈ items, Refers limit entries key r) :
    (∃ w', items.foldlM (Wiring.refer bounds key) w = .ok w') ∨
      ∃ fault, items.foldlM (Wiring.refer bounds key) w = .error fault ∧
        fault.OfLongRow limit entries := by
  have step : ∀ done r rest, items = done ++ r :: rest → ∀ v, Wired limit bounds entries v →
      (∃ v', Wiring.refer bounds key v r = .ok v' ∧ Wired limit bounds entries v') ∨
        ∃ fault, Wiring.refer bounds key v r = .error fault ∧ fault.OfLongRow limit entries := by
    intro done r rest whole v invV
    have refers := here r (by simp [whole])
    rcases invV.refer_ends_or_stops refers with ⟨v', step⟩ | stopped
    · exact Or.inl ⟨v', step, (invV.refer refers step).1⟩
    · exact Or.inr stopped
  rcases foldlM_ends_or_stops (fun _ v => Wired limit bounds entries v) _ inv step with
    ⟨w', run, _⟩ | stopped
  · exact Or.inl ⟨w', run⟩
  · exact Or.inr stopped

theorem Complete.enter_ends_or_stops {settings : Settings}
    (inv : Complete settings.limit bounds entries w) (e : String × Cell) :
    (∃ w', Wiring.enter settings bounds w e = .ok w') ∨
      ∃ fault, Wiring.enter settings bounds w e = .error fault ∧
        fault.OfLongRow settings.limit (entries ++ [e]) := by
  obtain ⟨repeats, extra, _, plain, step⟩ := enter_eq settings bounds e
  rw [step]
  split
  · exact Or.inl ⟨_, rfl⟩
  · rename_i absent
    have fresh := inv.fresh absent
    have here := first?_snoc_self fresh
    exact (inv.plant plain fresh).references_end_or_stop fun r member => ⟨e, here, member⟩

/-- Cells are wired, or a reference stops the wiring. -/
theorem ofCells_ends_or_stops (settings : Settings) (bounds : Bounds) (cells : Roster Cell) :
    (∃ w, ofCells settings bounds cells = .ok w) ∨
      ∃ fault, ofCells settings bounds cells = .error fault ∧
        fault.OfLongRow settings.limit cells.entries := by
  have step : ∀ done e rest, cells.entries = done ++ e :: rest →
      ∀ v, Complete settings.limit bounds done v →
        (∃ v', enter settings bounds v e = .ok v' ∧
          Complete settings.limit bounds (done ++ [e]) v') ∨
        ∃ fault, enter settings bounds v e = .error fault ∧
          fault.OfLongRow settings.limit cells.entries := by
    intro done e rest whole v inv
    rcases inv.enter_ends_or_stops e with ⟨v', step⟩ | ⟨fault, stopped, cause⟩
    · exact Or.inl ⟨v', step, inv.enter step⟩
    · have whole' : cells.entries = done ++ [e] ++ rest := by simp [whole]
      exact Or.inr ⟨fault, stopped, whole' ▸ cause.append rest⟩
  rcases foldlM_ends_or_stops (fun done v => Complete settings.limit bounds done v) _
    (complete_empty settings.limit bounds) step with ⟨w, run, _⟩ | stopped
  · exact Or.inl ⟨w, run⟩
  · exact Or.inr stopped

/-- Where a wiring ended, a reference with too many digits was refused, as it closes a loop. -/
theorem Complete.closesLoop_of_long (inv : Complete limit bounds entries w)
    {key reference : String} (refers : Refers limit entries key reference)
    (long : Fault.maxRowDigits < digitCount reference) :
    ∃ path, .closesLoop key reference path ∈ w.notes ∧ w.graph.IsPath key reference path := by
  have unread : ∀ inside, bounds.contains reference ≠ .ok inside := by
    intro inside tested
    cases (bounds.contains_of_long long).symm.trans tested
  rcases inv.handled key reference refers with edge | stray | ⟨path, loop⟩
  · exact absurd (inv.edges _ _ edge).2 (unread true)
  · exact absurd (inv.notes _ stray).2 (unread false)
  · exact ⟨path, loop, (inv.notes _ loop).2⟩

theorem Complete.leads_back_of_long (inv : Complete limit bounds entries w)
    {key reference : String} (refers : Refers limit entries key reference)
    (long : Fault.maxRowDigits < digitCount reference) :
    ReflTransGen (Refers limit entries) reference key := by
  obtain ⟨_, _, isPath⟩ := inv.closesLoop_of_long refers long
  exact inv.refers_of_reaches isPath.reaches

theorem Complete.flagged_of_long (inv : Complete limit bounds entries w) {key reference : String}
    (refers : Refers limit entries key reference)
    (long : Fault.maxRowDigits < digitCount reference) : key ∈ w.flagged := by
  obtain ⟨_, loop, isPath⟩ := inv.closesLoop_of_long refers long
  exact mem_flagged loop isPath.start_mem

end Wiring

end Worksheet
