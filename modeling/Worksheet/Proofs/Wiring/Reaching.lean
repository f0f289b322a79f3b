-- All that a reference opens are ways over its own edge. So two wirings whose entries differ in the
-- reference of one formula go on side by side, as long as the keys that have entries have the same
-- ways in both.
import Worksheet.Proofs.Wiring.Loops

open Relation

namespace Worksheet.Wiring

open Worksheet.Text (upper)

variable {settings : Settings} {bounds : Bounds} {key reference : String} {w w' v u : Wiring}
  {K : String → Prop}

/-! ## One reference -/

/-- The reference becomes an edge: it closes no loop, and is on the grid. -/
def Links (bounds : Bounds) (key : String) (w : Wiring) (reference : String) : Prop :=
  ¬ w.graph.Reaches key reference ∧ bounds.contains reference = .ok true

/-- What is to be known of a wiring after a reference was wired: its graph is consistent and has its
nodes still, its slots stand at the same keys, and its ways are the old ones and those over the
edge, where the reference became one. -/
theorem refer_spec (con : w.graph.Consistent) (ran : refer bounds key w reference = .ok w') :
    w'.graph.Consistent ∧ (∀ k ∈ w.graph.keys, k ∈ w'.graph.keys) ∧
      (∀ k, w'.slots.contains k = w.slots.contains k) ∧
      ∀ a b, w'.graph.Reaches a b ↔ w.graph.Reaches a b ∨
        (Links bounds key w reference ∧ w.graph.Reaches a reference ∧ w.graph.Reaches key b) := by
  rcases refer_cases con ran with ⟨path, _, isPath, rfl⟩ | ⟨_, apart, inside, g, added, rfl⟩ |
    ⟨_, outside, rfl⟩
  · have closed : ¬ Links bounds key w reference := fun links => links.1 isPath.reaches
    refine ⟨by simpa using con, by simp, contains_tell w _, fun a b => ?_⟩
    simp [closed]
  · obtain ⟨sourceNode, targetNode⟩ := Graph.mem_of_addEdge added
    obtain ⟨g', added', con', keys, edges⟩ :=
      Graph.addEdge_spec (con.ensure reference) sourceNode targetNode
    cases added.symm.trans added'
    have links : Links bounds key w reference := ⟨apart, inside⟩
    refine ⟨con', fun k member => by simp [keys, member], fun _ => rfl, fun a b => ?_⟩
    rw [Graph.reaches_addEdge edges]
    simp only [Graph.reaches_ensure, links, true_and]
  · have closed : ¬ Links bounds key w reference := by
      intro links
      cases outside.symm.trans links.2
    refine ⟨by simpa using con, by simp, contains_tell w _, fun a b => ?_⟩
    simp [closed]

/-! ## Side by side, with the same ways from some keys -/

/-- Two wirings under way: they have slots at the same keys, and the same ways from the keys
of `K`. -/
structure Together (K : String → Prop) (w v : Wiring) : Prop where
  left : w.graph.Consistent
  right : v.graph.Consistent
  known : ∀ key, w.slots.contains key = v.slots.contains key
  reaches : ∀ a, K a → ∀ b, w.graph.Reaches a b ↔ v.graph.Reaches a b

theorem Together.refl (con : w.graph.Consistent) : Together K w w where
  left := con
  right := con
  known _ := rfl
  reaches _ _ _ := Iff.rfl

theorem Together.symm (h : Together K w v) : Together K v w where
  left := h.right
  right := h.left
  known key := (h.known key).symm
  reaches a own b := (h.reaches a own b).symm

theorem Together.trans (h : Together K w v) (h' : Together K v u) : Together K w u where
  left := h.left
  right := h'.right
  known key := (h.known key).trans (h'.known key)
  reaches a own b := (h.reaches a own b).trans (h'.reaches a own b)

/-- A reference of a formula at a key of `K` is wired in both as it is in one. -/
theorem Together.refer (h : Together K w v) (own : K key) (node : key ∈ v.graph.keys)
    (ran : Wiring.refer bounds key w reference = .ok w') :
    ∃ v', Wiring.refer bounds key v reference = .ok v' ∧ Together K w' v' ∧
      key ∈ v'.graph.keys := by
  have allows : Allows bounds key v reference :=
    (allows_of_refer h.left ran).imp_left (h.reaches key own reference).1
  have links : Links bounds key w reference ↔ Links bounds key v reference :=
    and_congr_left' (not_congr (h.reaches key own reference))
  obtain ⟨v', ran'⟩ := allows.exists_refer h.right node
  obtain ⟨con, _, slots, ways⟩ := refer_spec h.left ran
  obtain ⟨con', nodes', slots', ways'⟩ := refer_spec h.right ran'
  refine ⟨v', ran', ⟨con, con', fun k => ?_, fun a here b => ?_⟩, nodes' key node⟩
  · rw [slots, slots', h.known]
  · rw [ways, ways', links, h.reaches a here, h.reaches a here, h.reaches key own]

theorem Together.plant (h : Together K w v) (key : String) {slots slots' : Roster Slot}
    (known : ∀ k, slots.contains k = slots'.contains k) (notes notes' : List Note) :
    Together K ⟨w.graph.ensure key, slots, notes⟩ ⟨v.graph.ensure key, slots', notes'⟩ where
  left := h.left.ensure key
  right := h.right.ensure key
  known := known
  reaches a own b := by rw [Graph.reaches_ensure, Graph.reaches_ensure, h.reaches a own]

theorem Together.references (h : Together K w v) (own : K key) (node : key ∈ v.graph.keys)
    {items : List String} (run : items.foldlM (Wiring.refer bounds key) w = .ok w') :
    ∃ v', items.foldlM (Wiring.refer bounds key) v = .ok v' ∧ Together K w' v' := by
  have step : ∀ done r rest, items = done ++ r :: rest → ∀ x y x',
      (Together K x y ∧ key ∈ y.graph.keys) → Wiring.refer bounds key x r = .ok x' →
        ∃ y', Wiring.refer bounds key y r = .ok y' ∧ Together K x' y' ∧ key ∈ y'.graph.keys :=
    fun _ _ _ _ _ _ _ now first => now.1.refer own now.2 first
  obtain ⟨v', run', beside, _⟩ :=
    foldlM_beside (fun _ x y => Together K x y ∧ key ∈ y.graph.keys) ⟨h, node⟩ step run
  exact ⟨v', run', beside⟩

theorem Together.enter (h : Together K w v) {e : String × Cell} (own : K (upper e.1))
    (ran : Wiring.enter settings bounds w e = .ok w') :
    ∃ v', Wiring.enter settings bounds v e = .ok v' ∧ Together K w' v' := by
  obtain ⟨repeats, extra, _, _, step⟩ := enter_eq settings bounds e
  rw [step] at ran
  rw [step, ← h.known]
  split at ran
  · rename_i present
    cases ran
    exact ⟨_, if_pos present, h.plant _ h.known _ _⟩
  · rename_i absent
    rw [if_neg absent]
    refine (h.plant _ (fun k => ?_) _ _).references own (by simp) ran
    rw [Roster.contains_put, Roster.contains_put, h.known]

/-! ## A reference that opens no way -/

/-- The reference can be looked up, and no key of `K` leads to it if it is on the grid. So none
gets a way through it. -/
def Idle (K : String → Prop) (bounds : Bounds) (w : Wiring) (reference : String) : Prop :=
  ∃ inside, bounds.contains reference = .ok inside ∧
    (inside = true → ∀ a, K a → ¬ w.graph.Reaches a reference)

/-- A formula that names nothing else is wired, and leaves the ways from `K` as they are. -/
theorem Idle.exists_run (idle : Idle K bounds w reference) (con : w.graph.Consistent)
    (node : key ∈ w.graph.keys) :
    ∃ w', [reference].foldlM (refer bounds key) w = .ok w' ∧ Together K w w' := by
  obtain ⟨inside, tested, apart⟩ := idle
  obtain ⟨w', ran⟩ := Allows.exists_refer (Or.inr ⟨inside, tested⟩) con node
  obtain ⟨con', _, slots, ways⟩ := refer_spec con ran
  refine ⟨w', ?_, con, con', fun k => (slots k).symm, fun a own b => ?_⟩
  · rw [List.foldlM_cons, ran]
    rfl
  · rw [ways]
    refine (or_iff_left_of_imp ?_).symm
    rintro ⟨⟨_, on⟩, through, _⟩
    cases tested.symm.trans on
    exact absurd through (apart rfl a own)

theorem Idle.ensure (idle : Idle K bounds w reference) (key : String) (slots : Roster Slot)
    (notes : List Note) : Idle K bounds ⟨w.graph.ensure key, slots, notes⟩ reference := by
  obtain ⟨inside, tested, apart⟩ := idle
  refine ⟨inside, tested, fun on a own => ?_⟩
  rw [Graph.reaches_ensure]
  exact apart on a own

/-- Of two entries with one key that each name nothing but an idle reference, the one is wired
where the other is. -/
theorem exists_enter_of_idle (con : w.graph.Consistent) {e d : String × Cell}
    (key : upper e.1 = upper d.1) {x y : String} (names : e.2.references settings.limit = [x])
    (names' : d.2.references settings.limit = [y]) (idle : Idle K bounds w x)
    (idle' : Idle K bounds w y) (ran : enter settings bounds w e = .ok w') :
    ∃ v', enter settings bounds w d = .ok v' ∧ Together K w' v' := by
  obtain ⟨_, extra, _, _, step⟩ := enter_eq settings bounds e
  obtain ⟨_, extra', _, _, step'⟩ := enter_eq settings bounds d
  have node : upper e.1 ∈ (w.graph.ensure (upper e.1)).keys := by simp
  rw [step, names] at ran
  rw [step', names', ← key]
  split at ran
  · rename_i present
    cases ran
    exact ⟨_, if_pos present, (Together.refl con).plant _ (fun _ => rfl) _ _⟩
  · rename_i absent
    obtain ⟨_, first, left⟩ := (idle.ensure _ _ _).exists_run (con.ensure _) node
    cases ran.symm.trans first
    obtain ⟨v', second, right⟩ := (idle'.ensure (upper e.1)
      (w.slots.put (upper e.1) (Slot.start settings.limit d)) (w.notes ++ extra')).exists_run
      (con.ensure _) node
    refine ⟨v', (if_neg absent).trans second, left.symm.trans (.trans ?_ right)⟩
    -- Before their references are wired the two differ only in what their slots hold.
    refine (Together.refl con).plant _ (fun k => ?_) _ _
    rw [Roster.contains_put, Roster.contains_put]

/-! ## Tables that differ in one entry -/

/-- Two runs of entries are the same but for one entry with one key, which names an idle reference
in each: the one gets to its end where the other does. -/
theorem exists_run_of_idle {before after : List (String × Cell)} {e d : String × Cell}
    (key : upper e.1 = upper d.1) {x y : String} (names : e.2.references settings.limit = [x])
    (names' : d.2.references settings.limit = [y])
    (idle : ∀ u, Wired settings.limit bounds before u →
      Idle (fun a => ∃ e' ∈ before ++ e :: after, upper e'.1 = a) bounds u x)
    (idle' : ∀ u, Wired settings.limit bounds before u →
      Idle (fun a => ∃ e' ∈ before ++ e :: after, upper e'.1 = a) bounds u y)
    (run : (before ++ e :: after).foldlM (enter settings bounds) empty = .ok w) :
    ∃ v, (before ++ d :: after).foldlM (enter settings bounds) empty = .ok v := by
  obtain ⟨u, front, run⟩ := exists_of_foldlM_append run
  have inv := (complete_of_run front).toWired
  rw [List.foldlM_cons] at run
  obtain ⟨w', here, later⟩ := exists_of_bind run
  obtain ⟨v', there, beside⟩ :=
    exists_enter_of_idle inv.consistent key names names' (idle u inv) (idle' u inv) here
  obtain ⟨v, rest, _⟩ := foldlM_beside (fun _ => Together _) beside
    (fun done f more whole _ _ _ now first => now.enter ⟨f, by simp [whole], rfl⟩ first) later
  refine ⟨v, ?_⟩
  rw [List.foldlM_append, front]
  simp only [bind, Except.bind, List.foldlM_cons, there, rest]

end Worksheet.Wiring
