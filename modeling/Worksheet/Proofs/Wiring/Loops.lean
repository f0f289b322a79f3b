-- Loops of a wired table. A bad reference is flagged only where a reference is off the grid, or on
-- a loop of references. And no loop is missed: on each there is a reference that is no edge, and
-- both its ends are flagged where it is on the grid.
import Worksheet.Proofs.Wiring.Laws

open Relation

namespace Worksheet.Wiring

open Worksheet.Text (upper)

variable {limit : Formula.Limit} {bounds : Bounds} {entries : List (String × Cell)} {w : Wiring}

/-! ## Why a key is flagged -/

/-- The ways of the graph are chains of references, read from their ends. -/
theorem Wired.refers_of_reaches (inv : Wired limit bounds entries w) {start goal : String}
    (way : w.graph.Reaches start goal) : ReflTransGen (Refers limit entries) goal start :=
  ReflTransGen.mono (fun t s edge => (inv.edges s t edge).1) _ _ (ReflTransGen.swap _ _ way)

theorem eq_of_leads {key a : String} (absent : first? entries key = none)
    (way : ReflTransGen (Refers limit entries) key a) : a = key := by
  rcases way.cases_head with same | ⟨_, ⟨e, first, _⟩, _⟩
  · exact same.symm
  · cases absent.symm.trans first

theorem Complete.flagged_of_outside (inv : Complete limit bounds entries w)
    {key reference : String} (refers : Refers limit entries key reference)
    (outside : bounds.contains reference = .ok false) : key ∈ w.flagged := by
  by_contra clear
  have edge := (inv.handled key reference refers).edge inv.toWired clear
  cases outside.symm.trans (inv.edges reference key edge).2

/-- A key is flagged for a reference off the grid, or it lies on a loop. -/
theorem Wired.cause_of_flagged (inv : Wired limit bounds entries w) {key : String}
    (h : key ∈ w.flagged) :
    (∃ r, Refers limit entries key r ∧ bounds.contains r = .ok false) ∨
      TransGen (Refers limit entries) key key := by
  obtain ⟨n, member, named⟩ := List.mem_flatMap.1 h
  have sound := inv.notes n member
  cases n with
  | closesLoop start reference path =>
    obtain ⟨refers, isPath⟩ := sound
    obtain ⟨before, after⟩ := isPath.via key named
    have first := inv.refers_of_reaches before
    have last := inv.refers_of_reaches after
    exact Or.inr (TransGen.trans_right first (TransGen.head' refers last))
  | offGrid start reference => exact Or.inl ⟨reference, List.mem_singleton.1 named ▸ sound⟩
  | _ => cases named

/-- A key is not flagged where each of its references is on the grid and does not lead back. -/
theorem Wired.clear_of_no_way_back (inv : Wired limit bounds entries w) {key : String}
    (harmless : ∀ r, Refers limit entries key r →
      bounds.contains r = .ok true ∧ ¬ ReflTransGen (Refers limit entries) r key) :
    key ∉ w.flagged := by
  intro flag
  rcases inv.cause_of_flagged flag with ⟨r, refers, outside⟩ | loop
  · rw [(harmless r refers).1] at outside
    cases outside
  · obtain ⟨r, refers, back⟩ := TransGen.head'_iff.1 loop
    exact (harmless r refers).2 back

/-! ## No loop is missed -/

theorem transGen_of_steps {α : Type} {R : α → α → Prop} {c : ℕ → α} {n : ℕ} (pos : 0 < n)
    (steps : ∀ i < n, R (c i) (c (i + 1))) : TransGen R (c 0) (c n) := by
  induction n with
  | zero => omega
  | succ n ih =>
    have last := steps n (by omega)
    rcases Nat.eq_zero_or_pos n with rfl | pos
    · exact .single last
    · exact .tail (ih pos fun i hi => steps i (by omega)) last

/-- On every loop of references there is one that is no edge. -/
theorem Complete.exists_refused (inv : Complete limit bounds entries w) {c : ℕ → String} {n : ℕ}
    (pos : 0 < n) (steps : ∀ i < n, Refers limit entries (c i) (c (i + 1)))
    (closed : c n = c 0) :
    ∃ i < n, .offGrid (c i) (c (i + 1)) ∈ w.notes ∨
      ∃ path, .closesLoop (c i) (c (i + 1)) path ∈ w.notes := by
  by_contra none
  have edges : ∀ i < n, w.graph.Edge (c (i + 1)) (c i) := by
    intro i hi
    rcases inv.handled _ _ (steps i hi) with edge | refused
    · exact edge
    · exact absurd ⟨i, hi, refused⟩ none
  have loop : TransGen (Function.swap w.graph.Edge) (c 0) (c n) := transGen_of_steps pos edges
  rw [closed] at loop
  exact inv.acyclic (c 0) (TransGen.swap _ _ loop)

theorem Complete.exists_flagged (inv : Complete limit bounds entries w) {c : ℕ → String} {n : ℕ}
    (pos : 0 < n) (steps : ∀ i < n, Refers limit entries (c i) (c (i + 1)))
    (closed : c n = c 0) : ∃ i < n, c i ∈ w.flagged := by
  obtain ⟨i, hi, refused⟩ := inv.exists_refused pos steps closed
  refine ⟨i, hi, ?_⟩
  rcases refused with stray | ⟨path, loop⟩
  · exact mem_flagged stray (List.mem_singleton_self _)
  · exact mem_flagged loop (inv.notes _ loop).2.start_mem

/-- On every loop of references on the grid there is one with both its ends flagged. -/
theorem Complete.exists_flagged_link (inv : Complete limit bounds entries w) {c : ℕ → String}
    {n : ℕ} (pos : 0 < n) (steps : ∀ i < n, Refers limit entries (c i) (c (i + 1)))
    (inside : ∀ i < n, bounds.contains (c (i + 1)) = .ok true) (closed : c n = c 0) :
    ∃ i < n, c i ∈ w.flagged ∧ c (i + 1) ∈ w.flagged := by
  obtain ⟨i, hi, stray | ⟨path, loop⟩⟩ := inv.exists_refused pos steps closed
  · have outside := (inv.notes _ stray).2
    rw [inside i hi] at outside
    cases outside
  · have isPath := (inv.notes _ loop).2
    exact ⟨i, hi, mem_flagged loop isPath.start_mem, mem_flagged loop isPath.goal_mem⟩

/-! ## Without loops -/

theorem acyclic_of_rank (rank : String → ℕ)
    (down : ∀ e ∈ entries, ∀ r ∈ e.2.references limit, rank r < rank (upper e.1)) (key : String) :
    ¬ TransGen (Refers limit entries) key key := by
  have falls : ∀ k r, Refers limit entries k r → rank r < rank k := by
    rintro k r ⟨e, first, member⟩
    exact upper_of_first? first ▸ down e (mem_of_first? first) r member
  have along : ∀ k r, TransGen (Refers limit entries) k r → rank r < rank k := by
    intro k r way
    induction way with
    | single step => exact falls _ _ step
    | tail _ step ih => exact (falls _ _ step).trans ih
  exact fun loop => Nat.lt_irrefl _ (along key key loop)

/-- Without loops a key is flagged for a reference off the grid, and for nothing else. -/
theorem Complete.flagged_iff (inv : Complete limit bounds entries w)
    (acyclic : ∀ key, ¬ TransGen (Refers limit entries) key key) (key : String) :
    key ∈ w.flagged ↔ ∃ r, Refers limit entries key r ∧ bounds.contains r = .ok false := by
  constructor
  · exact fun flag => (inv.cause_of_flagged flag).resolve_right (acyclic key)
  · rintro ⟨r, refers, outside⟩
    exact inv.flagged_of_outside refers outside

/-- Without loops a slot hangs on nothing but its own entry. -/
theorem Complete.slot_congr {more : List (String × Cell)} {u : Wiring}
    (invW : Complete limit bounds entries w) (invU : Complete limit bounds more u)
    (acyclicW : ∀ key, ¬ TransGen (Refers limit entries) key key)
    (acyclicU : ∀ key, ¬ TransGen (Refers limit more) key key) {key : String}
    (first : first? more key = first? entries key) : u.slots.get? key = w.slots.get? key := by
  have flags : key ∈ u.flagged ↔ key ∈ w.flagged := by
    rw [invU.flagged_iff acyclicU, invW.flagged_iff acyclicW]
    simp only [Refers, first]
  simp only [invU.slots, invW.slots, first, flags]

/-! ## Lone loops -/

theorem reflTransGen_of_steps {α : Type} {R : α → α → Prop} {k : ℕ → α}
    (steps : ∀ i, R (k i) (k (i + 1))) (i j : ℕ) : ReflTransGen R (k i) (k (i + j)) := by
  induction j with
  | zero => exact .refl
  | succ j ih => exact .tail ih (steps (i + j))

/-- Where no key of a loop on the grid names another key that leads back to it, the whole loop is
flagged. -/
theorem Complete.lone_loop_flagged (inv : Complete limit bounds entries w) {k : ℕ → String} {n : ℕ}
    (pos : 0 < n) (steps : ∀ i, Refers limit entries (k i) (k (i + 1)))
    (inside : ∀ i, bounds.contains (k i) = .ok true) (closed : ∀ i, k (i + n) = k i)
    (lone : ∀ i s, Refers limit entries (k i) s → ReflTransGen (Refers limit entries) s (k i) →
      s = k (i + 1)) : ∀ i, k i ∈ w.flagged := by
  obtain ⟨i, _, stray | ⟨path, loop⟩⟩ :=
    inv.exists_refused pos (fun i _ => steps i) (by simpa using closed 0)
  · have outside := (inv.notes _ stray).2
    rw [inside (i + 1)] at outside
    cases outside
  have isPath := (inv.notes _ loop).2
  have around : ∀ j m, ReflTransGen (Refers limit entries) (k j) (k (j + m)) :=
    reflTransGen_of_steps steps
  -- The path goes along the loop: from its end on, each key of it is followed by the next one.
  have onPath : ∀ j, k (i + 1 + j) ∈ path := by
    intro j
    induction j with
    | zero => exact isPath.goal_mem
    | succ j ih =>
      by_cases same : k (i + 1 + j) = k i
      · have next : k (i + 1 + j + 1) = k (i + 1) := by
          apply lone i _ (same ▸ steps (i + 1 + j))
          have back := around (i + 1 + j + 1) (n - 1)
          rw [show i + 1 + j + 1 + (n - 1) = i + 1 + j + n by omega, closed, same] at back
          exact back
        exact next ▸ isPath.goal_mem
      · obtain ⟨before, member, edge⟩ := isPath.exists_edge ih same
        have toStart := inv.refers_of_reaches (isPath.via before member).1
        have fromStart := around i (1 + j)
        rw [← Nat.add_assoc] at fromStart
        have next := lone (i + 1 + j) before (inv.edges _ _ edge).1 (toStart.trans fromStart)
        exact next ▸ member
  have turns : ∀ m j, k (j + m * n) = k j := by
    intro m j
    induction m with
    | zero => simp
    | succ m ih => rw [Nat.succ_mul, ← Nat.add_assoc, closed, ih]
  intro j
  apply mem_flagged loop
  have reached : i + 1 ≤ j + (i + 1) * n :=
    Nat.le_trans (Nat.le_mul_of_pos_right _ pos) (Nat.le_add_left _ _)
  have member := onPath (j + (i + 1) * n - (i + 1))
  rw [Nat.add_sub_cancel' reached, turns] at member
  exact member

end Worksheet.Wiring
