-- The cells of a loop. They all show a bad reference where a note names each of them, and on every
-- loop some do. Where loops cross, though, a cell can be on one and be named by no note: then it
-- shows a value. Where no cell of a loop has another way back to itself, all of them are named.
import Worksheet.Proofs.Recalculation.Showing

open Relation

namespace Worksheet

open Worksheet.Text (upper)

/-- An entry shows a bad reference, and no value. -/
def Recalculated.Refuses (r : Recalculated) (entry : String) : Prop :=
  ∃ c, r.table.cells.get? entry = some c ∧ c.error = some "#REF!" ∧ c.value = none

variable {settings : Settings} {t : Table} {r : Recalculated} {w v : Wiring} {order : List String}

/-- An entry whose formula can be read shows a bad reference and no value just where an earlier
entry has its key, or its key is flagged. -/
theorem Table.Pass.refuses_iff (pass : t.Pass settings r w v order) {e : String × Cell}
    (member : e ∈ t.cells.entries) {text : String} (written : e.2.formula? = some text)
    {f : Formula} (parsed : Formula.parse text settings.limit = .ok f) :
    r.Refuses e.1 ↔ first? t.cells.entries (upper e.1) ≠ some e ∨ upper e.1 ∈ w.flagged := by
  by_cases first : first? t.cells.entries (upper e.1) = some e
  · constructor
    · rintro ⟨c, found, error, _⟩
      by_contra open'
      have clear : upper e.1 ∉ w.flagged := fun flag => open' (Or.inr flag)
      obtain ⟨c', found', own⟩ := pass.error_of_clear first written parsed clear
      cases found.symm.trans found'
      exact absurd (own _ error) (by decide)
    · rintro (later | flag)
      · exact absurd first later
      · exact ⟨_, pass.shows_flagged first written parsed flag, rfl, rfl⟩
  · exact iff_of_true ⟨_, pass.shows_repeated member first written, rfl, rfl⟩ (Or.inl first)

/-- What comes round after `n` steps has for its next step the step of the remainder. -/
theorem apply_succ_mod {α : Type} {c : ℕ → α} {n : ℕ} (pos : 0 < n) (closed : c n = c 0) (i : ℕ) :
    c ((i + 1) % n) = c (i % n + 1) := by
  have below := Nat.mod_lt i pos
  rw [← Nat.mod_add_mod]
  rcases Nat.lt_or_ge (i % n + 1) n with inside | last
  · rw [Nat.mod_eq_of_lt inside]
  · have wraps : i % n + 1 = n := by omega
    rw [wraps, Nat.mod_self, closed]

/-- Where no cell of a loop on the grid names another key that leads back to it, all are flagged. -/
theorem Table.Pass.lone_loop_flagged (pass : t.Pass settings r w v order) {n : ℕ} (pos : 0 < n)
    {c : ℕ → String × Cell}
    (firsts : ∀ i < n, first? t.cells.entries (upper (c i).1) = some (c i))
    (links : ∀ i < n, upper (c (i + 1)).1 ∈ (c i).2.references settings.limit ∧
      t.bounds.contains (upper (c (i + 1)).1) = .ok true) (closed : c n = c 0)
    (lone : ∀ i < n, ∀ s, Refers settings.limit t.cells.entries (upper (c i).1) s →
      ReflTransGen (Refers settings.limit t.cells.entries) s (upper (c i).1) →
      s = upper (c (i + 1)).1) :
    ∀ i < n, upper (c i).1 ∈ w.flagged := by
  -- The loop goes on without end when its cells are counted round and round.
  have below : ∀ i, i % n < n := fun i => Nat.mod_lt i pos
  have next : ∀ i, upper (c ((i + 1) % n)).1 = upper (c (i % n + 1)).1 := by
    intro i
    rw [apply_succ_mod pos closed]
  have inside : ∀ i, t.bounds.contains (upper (c (i % n)).1) = .ok true := by
    intro i
    have wraps : i % n = (i + (n - 1) + 1) % n := by
      rw [show i + (n - 1) + 1 = i + n by omega, Nat.add_mod_right]
    rw [wraps, next]
    exact (links _ (below _)).2
  have steps : ∀ i, Refers settings.limit t.cells.entries (upper (c (i % n)).1)
      (upper (c ((i + 1) % n)).1) := by
    intro i
    rw [next]
    exact ⟨c (i % n), firsts _ (below i), (links _ (below i)).1⟩
  have around : ∀ i, upper (c ((i + n) % n)).1 = upper (c (i % n)).1 := by
    intro i
    rw [Nat.add_mod_right]
  have only : ∀ i s, Refers settings.limit t.cells.entries (upper (c (i % n)).1) s →
      ReflTransGen (Refers settings.limit t.cells.entries) s (upper (c (i % n)).1) →
      s = upper (c ((i + 1) % n)).1 := by
    intro i s names back
    rw [next]
    exact lone _ (below i) s names back
  intro i hi
  have flag : upper (c (i % n)).1 ∈ w.flagged :=
    pass.wired.lone_loop_flagged (k := fun i => upper (c (i % n)).1) pos steps inside around only i
  rwa [Nat.mod_eq_of_lt hi] at flag

/-- The cells of a loop on the grid all show a bad reference and no value just where each has the
key of an earlier entry, or is named by a note of a bad reference. One of them always does. Where
no entry has the key of an earlier one, so does the one that it reads, and all of them do where
none names another key that leads back to it. -/
theorem loop_refuses_iff (h : t.recalculate settings = .ok r) {n : ℕ} (pos : 0 < n)
    {c : ℕ → String × Cell} (members : ∀ i < n, c i ∈ t.cells.entries)
    (links : ∀ i < n, upper (c (i + 1)).1 ∈ (c i).2.references settings.limit ∧
      t.bounds.contains (upper (c (i + 1)).1) = .ok true) (closed : c n = c 0) :
    ((∀ i < n, r.Refuses (c i).1) ↔
      ∀ i < n, first? t.cells.entries (upper (c i).1) ≠ some (c i) ∨
        upper (c i).1 ∈ r.notes.flatMap Note.flagged) ∧
    (∃ i < n, r.Refuses (c i).1 ∧
      ((∀ j < n, first? t.cells.entries (upper (c j).1) = some (c j)) →
        r.Refuses (c (i + 1)).1)) ∧
    ((∀ i < n, first? t.cells.entries (upper (c i).1) = some (c i)) →
      (∀ i < n, ∀ s, Refers settings.limit t.cells.entries (upper (c i).1) s →
        ReflTransGen (Refers settings.limit t.cells.entries) s (upper (c i).1) →
        s = upper (c (i + 1)).1) → ∀ i < n, r.Refuses (c i).1) := by
  obtain ⟨w, v, order, _, pass⟩ := Table.exists_pass h
  have each : ∀ i < n, r.Refuses (c i).1 ↔
      first? t.cells.entries (upper (c i).1) ≠ some (c i) ∨ upper (c i).1 ∈ w.flagged := by
    intro i hi
    obtain ⟨text, f, written, parsed, _⟩ := Cell.mem_references_iff.1 (links i hi).1
    exact pass.refuses_iff (members i hi) written parsed
  refine ⟨?_, ?_, fun firsts lone i hi =>
    (each i hi).2 (Or.inr (pass.lone_loop_flagged pos firsts links closed lone i hi))⟩
  · rw [pass.flagged]
    exact ⟨fun all i hi => (each i hi).1 (all i hi), fun all i hi => (each i hi).2 (all i hi)⟩
  · -- An entry that is not the first with its key shows a bad reference anyway.
    by_cases firsts : ∀ j < n, first? t.cells.entries (upper (c j).1) = some (c j)
    · have steps : ∀ i < n, Refers settings.limit t.cells.entries (upper (c i).1)
          (upper (c (i + 1)).1) := fun i hi => ⟨c i, firsts i hi, (links i hi).1⟩
      obtain ⟨i, hi, here, next⟩ := pass.wired.exists_flagged_link pos steps
        (fun i hi => (links i hi).2) (by rw [closed])
      refine ⟨i, hi, (each i hi).2 (Or.inr here), fun _ => ?_⟩
      rcases Nat.lt_or_ge (i + 1) n with inside | last
      · exact (each (i + 1) inside).2 (Or.inr next)
      · have wraps : c (i + 1) = c 0 := by rw [← closed, show i + 1 = n by omega]
        rw [wraps] at next ⊢
        exact (each 0 pos).2 (Or.inr next)
    · simp only [not_forall] at firsts
      obtain ⟨i, hi, later⟩ := firsts
      exact ⟨i, hi, (each i hi).2 (Or.inl later), fun all => absurd (all i hi) later⟩

/-- A table with a loop of three cells, one of which also reads a cell off the loop. -/
def Table.ring : Table where
  rows := 1
  columns := .ofEntries [("A", ⟨"", []⟩), ("B", ⟨"", []⟩), ("C", ⟨"", []⟩), ("D", ⟨"", []⟩)]
  cells := .ofEntries [("A1", ⟨none, some "=B1", none⟩), ("B1", ⟨none, some "=C1+D1", none⟩),
    ("C1", ⟨none, some "=A1", none⟩), ("D1", ⟨some "2", none, none⟩)]

/-- Its entries along the loop. -/
def Table.ringEntry : ℕ → String × Cell
  | 1 => ("B1", ⟨none, some "=C1+D1", none⟩)
  | 2 => ("C1", ⟨none, some "=A1", none⟩)
  | _ => ("A1", ⟨none, some "=B1", none⟩)

theorem loop_refuses_iff_of_ring :
    ∃ r, Table.ring.recalculate .usual = .ok r ∧
      r.Refuses "A1" ∧ r.Refuses "B1" ∧ r.Refuses "C1" := by
  have returns : (Table.ring.recalculate .usual).toOption.isSome = true := by decide +kernel
  obtain ⟨r, result⟩ := Option.isSome_iff_exists.1 returns
  have h := eq_ok_of_toOption result
  have members : ∀ i < 3, Table.ringEntry i ∈ Table.ring.cells.entries := by decide +kernel
  have named : ∀ i < 3, upper (Table.ringEntry (i + 1)).1 ∈
      (Table.ringEntry i).2.references Settings.usual.limit := by decide +kernel
  have inside : ∀ i < 3, (Table.ring.bounds.contains
      (upper (Table.ringEntry (i + 1)).1)).toOption = some true := by decide +kernel
  have firsts : ∀ i < 3, first? Table.ring.cells.entries (upper (Table.ringEntry i).1) =
      some (Table.ringEntry i) := by decide +kernel
  have others : ∀ i < 3, ∀ s ∈ (Table.ringEntry i).2.references Settings.usual.limit,
      s = upper (Table.ringEntry (i + 1)).1 ∨ s = "D1" := by decide +kernel
  have apart : ∀ i < 3, "D1" ≠ upper (Table.ringEntry i).1 := by decide +kernel
  have literal : first? Table.ring.cells.entries "D1" = some ("D1", ⟨some "2", none, none⟩) := by
    decide +kernel
  obtain ⟨_, _, refuses⟩ := loop_refuses_iff h (by decide) members
    (fun i hi => ⟨named i hi, eq_ok_of_toOption (inside i hi)⟩) rfl
  have all := refuses firsts fun i hi s names back => by
    obtain ⟨e, first, read⟩ := names
    cases first.symm.trans (firsts i hi)
    rcases others i hi s read with next | rfl
    · exact next
    · rcases ReflTransGen.cases_head back with same | ⟨_, names, _⟩
      · exact absurd same (apart i hi)
      · exact absurd names (not_refers_of_literal literal rfl _)
  exact ⟨r, h, all 0 (by decide), all 1 (by decide), all 2 (by decide)⟩

/-- A table with two loops that cross. -/
def Table.crossed : Table where
  rows := 1
  columns := .ofEntries [("A", ⟨"", []⟩), ("B", ⟨"", []⟩), ("C", ⟨"", []⟩)]
  cells := .ofEntries [("A1", ⟨none, some "=B1+C1", none⟩), ("B1", ⟨none, some "=A1", none⟩),
    ("C1", ⟨none, some "=B1", none⟩)]

/-- The cells `A1`, `C1` and `B1` are a loop on the grid, and `C1` shows a value. -/
theorem loop_shows_value_of_crossed :
    Refers Settings.usual.limit Table.crossed.cells.entries "A1" "C1" ∧
      Refers Settings.usual.limit Table.crossed.cells.entries "C1" "B1" ∧
      Refers Settings.usual.limit Table.crossed.cells.entries "B1" "A1" ∧
      (∀ key ∈ ["A1", "B1", "C1"], Table.crossed.bounds.contains key = .ok true) ∧
      ∃ r, Table.crossed.recalculate .usual = .ok r ∧
        r.table.cells.get? "C1" = some ⟨some "0", some "=B1", none⟩ := by
  have shown : ((Table.crossed.recalculate .usual).toOption.bind
      fun r => r.table.cells.get? "C1") = some ⟨some "0", some "=B1", none⟩ := by decide +kernel
  obtain ⟨r, result, found⟩ := Option.bind_eq_some_iff.1 shown
  have inside : ∀ key ∈ ["A1", "B1", "C1"],
      (Table.crossed.bounds.contains key).toOption = some true := by decide +kernel
  refine ⟨⟨("A1", ⟨none, some "=B1+C1", none⟩), ?_, ?_⟩, ⟨("C1", ⟨none, some "=B1", none⟩), ?_, ?_⟩,
    ⟨("B1", ⟨none, some "=A1", none⟩), ?_, ?_⟩, fun key hk => eq_ok_of_toOption (inside key hk),
    r, eq_ok_of_toOption result, found⟩ <;> decide +kernel

end Worksheet
