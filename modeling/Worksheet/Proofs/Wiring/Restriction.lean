-- A wiring seen from some keys whose formulas name no others. Without the other entries the same is
-- wired and the same is flagged: a loop through a kept key goes over kept keys only.
import Worksheet.Proofs.Graph.Restriction
import Worksheet.Proofs.Wiring.Laws

namespace Worksheet

open Worksheet.Text (upper)

/-- The entries under the keys that are kept. -/
def keptEntries (keep : String → Bool) (entries : List (String × Cell)) : List (String × Cell) :=
  entries.filter fun e => keep (upper e.1)

theorem first?_kept {keep : String → Bool} {key : String} (keeps : keep key = true)
    (entries : List (String × Cell)) :
    first? (keptEntries keep entries) key = first? entries key := by
  unfold first? keptEntries
  rw [List.find?_filter]
  congr 1
  funext e
  by_cases same : upper e.1 = key
  · simp [same, keeps]
  · simp [same]

theorem keptEntries_snoc (keep : String → Bool) (entries : List (String × Cell))
    (e : String × Cell) :
    keptEntries keep (entries ++ [e]) =
      if keep (upper e.1) then keptEntries keep entries ++ [e] else keptEntries keep entries := by
  by_cases keeps : keep (upper e.1) = true <;> simp [keptEntries, keeps]

namespace Wiring

/-! ## The relation -/

/-- What is wired of the kept keys is the same in both. -/
structure Within (keep : String → Bool) (w v : Wiring) : Prop where
  graph : Graph.Within keep w.graph v.graph
  slots : ∀ k, keep k = true → v.slots.get? k = w.slots.get? k

variable {keep : String → Bool} {w v : Wiring}

theorem within_empty (keep : String → Bool) : Within keep empty empty :=
  ⟨Graph.within_empty keep, fun _ _ => rfl⟩

theorem Within.tell (rel : Within keep w v) (n : Note) : Within keep (w.tell n) (v.tell n) where
  graph := by simpa using rel.graph
  slots k keeps := by rw [get?_tell, get?_tell, rel.slots k keeps]

theorem Within.tell_left (rel : Within keep w v) {n : Note}
    (dropped : ∀ k ∈ n.flagged, keep k = false) : Within keep (w.tell n) v where
  graph := by simpa using rel.graph
  slots k keeps := by
    have apart : k ∉ n.flagged := fun named => by simp [dropped k named] at keeps
    rw [get?_tell, if_neg apart, rel.slots k keeps]

theorem Within.plant (rel : Within keep w v) {key : String} (keeps : keep key = true) (s : Slot)
    (notes notes' : List Note) :
    Within keep ⟨w.graph.ensure key, w.slots.put key s, notes⟩
      ⟨v.graph.ensure key, v.slots.put key s, notes'⟩ where
  graph := rel.graph.ensure keeps
  slots k hk := by
    by_cases same : k = key
    · subst same
      rw [Roster.get?_put_self, Roster.get?_put_self]
    · rw [Roster.get?_put_of_ne _ same, Roster.get?_put_of_ne _ same, rel.slots k hk]

theorem Within.plant_left (rel : Within keep w v) {key : String} (dropped : keep key = false)
    (s : Slot) (notes : List Note) :
    Within keep ⟨w.graph.ensure key, w.slots.put key s, notes⟩ v where
  graph := rel.graph.ensure_left key
  slots k hk := by
    have apart : k ≠ key := fun same => by simp [← same, hk] at dropped
    rw [Roster.get?_put_of_ne _ apart, rel.slots k hk]

/-! ## One reference -/

variable {limit : Formula.Limit} {bounds : Bounds} {entries more : List (String × Cell)}

/-- A reference between kept keys is wired on both sides. -/
theorem Within.refer (rel : Within keep w v) (invW : Wired limit bounds entries w)
    (invV : Wired limit bounds more v)
    (firsts : ∀ k, keep k = true → first? more k = first? entries k) {key reference : String}
    (kept : keep reference = true ∧ keep key = true) (refers : Refers limit more key reference)
    {w' : Wiring} (h : Wiring.refer bounds key w reference = .ok w') :
    ∃ v', Wiring.refer bounds key v reference = .ok v' ∧ Within keep w' v' := by
  have node := invV.node refers
  have reading : ∀ s, w.graph.Edge s reference → reference ∈ v.graph.keys := by
    intro s edge
    obtain ⟨e, first, _⟩ := (invW.edges s reference edge).1
    exact invV.nodes reference e ((firsts reference kept.1).trans first)
  have paths := rel.graph.cyclePath invW.consistent invV.consistent kept node reading
  rcases refer_cases invW.consistent h with ⟨path, found, _, rfl⟩ |
    ⟨none, _, inside, g, added, rfl⟩ | ⟨none, outside, rfl⟩
  · exact ⟨_, refer_of_loop (paths.trans found), rel.tell _⟩
  · have hs : reference ∈ (v.graph.ensure reference).keys := by simp
    have ht : key ∈ (v.graph.ensure reference).keys := by simp [node]
    obtain ⟨g', added', graph⟩ := (rel.graph.ensure kept.1).addEdge kept hs ht added
    exact ⟨_, refer_of_edge (paths.trans none) inside added', graph, rel.slots⟩
  · exact ⟨_, refer_of_stray (paths.trans none) outside, rel.tell _⟩

/-- A reference of a key that is not kept makes no difference. -/
theorem Within.refer_left (rel : Within keep w v) (inv : Wired limit bounds entries w)
    {key reference : String} (dropped : keep key = false)
    (refers : Refers limit entries key reference) {w' : Wiring}
    (h : Wiring.refer bounds key w reference = .ok w') : Within keep w' v := by
  rcases refer_cases inv.consistent h with ⟨path, _, isPath, rfl⟩ |
    ⟨_, _, _, g, added, rfl⟩ | ⟨_, _, rfl⟩
  · exact rel.tell_left fun k named => rel.graph.reaches_dropped (isPath.via k named).1 dropped
  · have hs : reference ∈ (w.graph.ensure reference).keys := by simp
    have ht : key ∈ (w.graph.ensure reference).keys := by simp [inv.node refers]
    exact ⟨(rel.graph.ensure_left reference).addEdge_left dropped hs ht added, rel.slots⟩
  · exact rel.tell_left fun k named => List.mem_singleton.1 named ▸ dropped

/-! ## One entry -/

theorem Within.enter {settings : Settings} (rel : Within keep w v)
    (invW : Complete settings.limit bounds entries w)
    (invV : Complete settings.limit bounds (keptEntries keep entries) v) {e : String × Cell}
    (keeps : keep (upper e.1) = true)
    (closed : ∀ r ∈ e.2.references settings.limit, keep r = true) {w' : Wiring}
    (h : Wiring.enter settings bounds w e = .ok w') :
    ∃ v', Wiring.enter settings bounds v e = .ok v' ∧ Within keep w' v' := by
  obtain ⟨repeats, extra, _, plain, step⟩ := enter_eq settings bounds e
  have contains : v.slots.contains (upper e.1) = w.slots.contains (upper e.1) := by
    unfold Roster.contains
    rw [rel.slots _ keeps]
  rw [step] at h ⊢
  rw [contains]
  split at h
  · rename_i present
    rw [if_pos present]
    cases h
    exact ⟨_, rfl, rel.graph.ensure keeps, rel.slots⟩
  · rename_i absent
    rw [if_neg absent]
    have fresh := invW.fresh absent
    have firsts : ∀ k, keep k = true →
        first? (keptEntries keep entries ++ [e]) k = first? (entries ++ [e]) k := by
      intro k hk
      rw [first?_snoc, first?_snoc, first?_kept hk]
    have here := first?_snoc_self fresh
    have plantedV := invV.plant plain ((first?_kept keeps entries).trans fresh)
    obtain ⟨v', ran, _, _, rel'⟩ := foldlM_beside
      (fun _ x y => Wired settings.limit bounds (entries ++ [e]) x ∧
        Wired settings.limit bounds (keptEntries keep entries ++ [e]) y ∧ Within keep x y)
      ⟨invW.plant plain fresh, plantedV, rel.plant keeps _ _ _⟩
      (fun done reference rest whole x y x' inv ran => by
        obtain ⟨invX, invY, relXY⟩ := inv
        have member : reference ∈ e.2.references settings.limit := by simp [whole]
        have refersX : Refers settings.limit (entries ++ [e]) (upper e.1) reference :=
          ⟨e, here, member⟩
        have refersY : Refers settings.limit (keptEntries keep entries ++ [e]) (upper e.1)
            reference := ⟨e, (firsts _ keeps).trans here, member⟩
        obtain ⟨y', ran', relXY'⟩ :=
          relXY.refer invX invY firsts ⟨closed reference member, keeps⟩ refersY ran
        exact ⟨y', ran', (invX.refer refersX ran).1, (invY.refer refersY ran').1, relXY'⟩) h
    exact ⟨v', ran, rel'⟩

/-- An entry that is not kept makes no difference. -/
theorem Within.enter_left {settings : Settings} (rel : Within keep w v)
    (inv : Complete settings.limit bounds entries w) {e : String × Cell}
    (dropped : keep (upper e.1) = false) {w' : Wiring}
    (h : Wiring.enter settings bounds w e = .ok w') : Within keep w' v := by
  obtain ⟨repeats, extra, _, plain, step⟩ := enter_eq settings bounds e
  rw [step] at h
  split at h
  · cases h
    exact ⟨rel.graph.ensure_left _, rel.slots⟩
  · rename_i absent
    have fresh := inv.fresh absent
    have here := first?_snoc_self fresh
    refine (foldlM_keeps
      (fun _ x => Wired settings.limit bounds (entries ++ [e]) x ∧ Within keep x v)
      ⟨inv.plant plain fresh, rel.plant_left dropped _ _⟩ ?_ h).2
    intro done reference rest whole x x' ⟨invX, relX⟩ ran
    have refers : Refers settings.limit (entries ++ [e]) (upper e.1) reference :=
      ⟨e, here, by simp [whole]⟩
    exact ⟨(invX.refer refers ran).1, relX.refer_left invX dropped refers ran⟩

/-! ## All entries -/

/-- Where the formulas of kept keys name kept keys only, the kept entries are wired alone as they
are wired among all. -/
theorem exists_within {settings : Settings}
    (closed : ∀ e ∈ entries, keep (upper e.1) = true →
      ∀ r ∈ e.2.references settings.limit, keep r = true)
    (h : entries.foldlM (enter settings bounds) empty = .ok w) :
    ∃ v, (keptEntries keep entries).foldlM (enter settings bounds) empty = .ok v ∧
      Within keep w v := by
  refine (foldlM_keeps
    (fun done x => done.foldlM (enter settings bounds) empty = .ok x ∧
      ∃ y, (keptEntries keep done).foldlM (enter settings bounds) empty = .ok y ∧
        Within keep x y) ?_ ?_ h).2
  · exact ⟨rfl, empty, rfl, within_empty keep⟩
  · intro done e rest whole x x' ⟨ranX, y, ranY, rel⟩ step
    have invX := complete_of_run ranX
    refine ⟨foldlM_snoc ranX step, ?_⟩
    rw [keptEntries_snoc]
    by_cases keeps : keep (upper e.1) = true
    · rw [if_pos keeps]
      obtain ⟨y', step', rel'⟩ :=
        rel.enter invX (complete_of_run ranY) keeps (closed e (by simp [whole]) keeps) step
      exact ⟨y', foldlM_snoc ranY step', rel'⟩
    · rw [if_neg keeps]
      exact ⟨y, ranY, rel.enter_left invX (eq_false_of_ne_true keeps) step⟩

end Wiring

end Worksheet
