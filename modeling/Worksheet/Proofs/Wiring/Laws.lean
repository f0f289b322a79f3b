-- The laws of a wiring. What `Wired` says holds of the empty wiring and is kept by every step. Of a
-- whole table, moreover, every reference is an edge, or a note tells why it is none.
import Worksheet.Proofs.Wiring.Steps

open Relation

namespace Worksheet

open Worksheet.Text (upper)

/-! ## The invariant -/

/-- What a note tells of a bad reference is so. -/
def Note.Sound (limit : Formula.Limit) (bounds : Bounds) (entries : List (String × Cell))
    (g : Graph) :
    Note → Prop
  | .closesLoop key reference path =>
    Refers limit entries key reference ∧ g.IsPath key reference path
  | .offGrid key reference =>
    Refers limit entries key reference ∧ bounds.contains reference = .ok false
  | _ => True

theorem Note.Sound.mono {limit : Formula.Limit} {bounds : Bounds}
    {entries more : List (String × Cell)}
    {n : Note} {g h : Graph} (sound : n.Sound limit bounds entries g)
    (refers : ∀ k r, Refers limit entries k r → Refers limit more k r)
    (edges : ∀ s t, g.Edge s t → h.Edge s t) : n.Sound limit bounds more h := by
  cases n with
  | closesLoop key reference path => exact ⟨refers _ _ sound.1, sound.2.mono edges⟩
  | offGrid key reference => exact ⟨refers _ _ sound.1, sound.2⟩
  | _ => trivial

namespace Wiring

/-- The wiring of entries, as far as their references are wired. -/
structure Wired (limit : Formula.Limit) (bounds : Bounds) (entries : List (String × Cell))
    (w : Wiring) :
    Prop where
  consistent : w.graph.Consistent
  acyclic : w.graph.Acyclic
  nodes : ∀ key e, first? entries key = some e → key ∈ w.graph.keys
  slots : ∀ key, w.slots.get? key = (first? entries key).map fun e =>
    if key ∈ w.flagged then (Slot.start limit e).settle (.error .reference)
    else Slot.start limit e
  edges : ∀ s t, w.graph.Edge s t → Refers limit entries t s ∧ bounds.contains s = .ok true
  notes : ∀ n ∈ w.notes, n.Sound limit bounds entries w.graph

/-- The reference is an edge, or a note tells why it is none. -/
def Handled (w : Wiring) (key reference : String) : Prop :=
  w.graph.Edge reference key ∨ .offGrid key reference ∈ w.notes ∨
    ∃ path, .closesLoop key reference path ∈ w.notes

/-- The wiring of entries with all their references. -/
structure Complete (limit : Formula.Limit) (bounds : Bounds) (entries : List (String × Cell))
    (w : Wiring) :
    Prop extends Wired limit bounds entries w where
  handled : ∀ key reference, Refers limit entries key reference → w.Handled key reference

variable {limit : Formula.Limit} {bounds : Bounds} {entries : List (String × Cell)} {w : Wiring}

theorem wired_empty (limit : Formula.Limit) (bounds : Bounds) : Wired limit bounds [] empty where
  consistent := Graph.consistent_empty
  acyclic := Graph.acyclic_empty
  nodes _ _ h := by cases h
  slots _ := rfl
  edges s _ h := by
    have node := h.source_mem
    simp [empty, Graph.keys, Graph.empty, Roster.keys, Roster.empty, Entries.keys] at node
  notes n h := by cases h

/-! ## Growing -/

theorem Handled.mono {v : Wiring} {key reference : String} (h : w.Handled key reference)
    (edges : ∀ s t, w.graph.Edge s t → v.graph.Edge s t) (notes : ∀ n ∈ w.notes, n ∈ v.notes) :
    v.Handled key reference := by
  rcases h with edge | stray | ⟨path, loop⟩
  · exact Or.inl (edges _ _ edge)
  · exact Or.inr (Or.inl (notes _ stray))
  · exact Or.inr (Or.inr ⟨path, notes _ loop⟩)

/-! ## Flags -/

/-- Where a bad reference is flagged there is a reference. -/
theorem Wired.refers_of_flagged (inv : Wired limit bounds entries w) {key : String}
    (h : key ∈ w.flagged) : ∃ r, Refers limit entries key r := by
  obtain ⟨n, member, named⟩ := List.mem_flatMap.1 h
  have sound := inv.notes n member
  cases n with
  | closesLoop start reference path =>
    obtain ⟨refers, isPath⟩ := sound
    rcases ReflTransGen.cases_tail_iff _ _ _ |>.1 (isPath.via key named).1 with same | ⟨r, _, edge⟩
    · exact ⟨reference, same ▸ refers⟩
    · exact ⟨r, (inv.edges r key edge).1⟩
  | offGrid start reference =>
    obtain ⟨refers, _⟩ := sound
    exact ⟨reference, List.mem_singleton.1 named ▸ refers⟩
  | _ => cases named

/-- A formula that cannot be read names no key, so nothing is flagged at it. -/
theorem Wired.not_flagged (inv : Wired limit bounds entries w) {key : String}
    {e : String × Cell} (first : first? entries key = some e) (unread : e.2.parsed? limit = none) :
    key ∉ w.flagged := by
  intro flag
  obtain ⟨s, e', first', member⟩ := inv.refers_of_flagged flag
  cases first.symm.trans first'
  unfold Cell.references at member
  rw [unread] at member
  cases member

theorem Wired.tell (inv : Wired limit bounds entries w) {n : Note}
    (sound : n.Sound limit bounds entries w.graph) : Wired limit bounds entries (w.tell n) where
  consistent := by simpa using inv.consistent
  acyclic := by simpa using inv.acyclic
  nodes := by simpa using inv.nodes
  slots key := by
    rw [get?_tell, inv.slots, flagged_tell]
    by_cases new : key ∈ n.flagged <;> by_cases old : key ∈ w.flagged <;>
      simp [new, old, Function.comp_def, Slot.settle]
  edges := by simpa using inv.edges
  notes := by
    rw [notes_tell, graph_tell]
    intro m hm
    rcases List.mem_append.1 hm with old | new
    · exact inv.notes m old
    · exact List.mem_singleton.1 new ▸ sound

theorem Handled.tell {key reference : String} (h : w.Handled key reference) (n : Note) :
    (w.tell n).Handled key reference :=
  h.mono (fun _ _ edge => by simpa using edge) fun m hm => by simp [hm]

theorem mem_flagged {key : String} {n : Note} (member : n ∈ w.notes) (named : key ∈ n.flagged) :
    key ∈ w.flagged := List.mem_flatMap.2 ⟨n, member, named⟩

theorem Handled.ensure {k r : String} (h : w.Handled k r) (key : String) (slots : Roster Slot)
    (extra : List Note) : (Wiring.mk (w.graph.ensure key) slots (w.notes ++ extra)).Handled k r :=
  h.mono (fun _ _ edge => by simpa using edge) fun n hn => List.mem_append_left _ hn

theorem Handled.edge (inv : Wired limit bounds entries w) {key reference : String}
    (h : w.Handled key reference) (unflagged : key ∉ w.flagged) : w.graph.Edge reference key := by
  rcases h with edge | stray | ⟨path, loop⟩
  · exact edge
  · exact absurd (mem_flagged stray (List.mem_singleton_self key)) unflagged
  · exact absurd (mem_flagged loop (inv.notes _ loop).2.start_mem) unflagged

/-! ## One reference -/

theorem Wired.node (inv : Wired limit bounds entries w) {key reference : String}
    (refers : Refers limit entries key reference) : key ∈ w.graph.keys := by
  obtain ⟨e, found, _⟩ := refers
  exact inv.nodes key e found

/-- A reference that is wired keeps the laws, and is handled. -/
theorem Wired.refer (inv : Wired limit bounds entries w) {key reference : String} {w' : Wiring}
    (refers : Refers limit entries key reference)
    (h : Wiring.refer bounds key w reference = .ok w') :
    Wired limit bounds entries w' ∧ w'.Handled key reference ∧
      ∀ k r, w.Handled k r → w'.Handled k r := by
  rcases refer_cases inv.consistent h with ⟨path, _, isPath, rfl⟩ |
    ⟨_, apart, inside, g, added, rfl⟩ | ⟨_, outside, rfl⟩
  · exact ⟨inv.tell (And.intro refers isPath), Or.inr (Or.inr ⟨path, by simp⟩),
      fun k r old => old.tell _⟩
  · have con := inv.consistent.ensure reference
    have hs : reference ∈ (w.graph.ensure reference).keys := by simp
    have ht : key ∈ (w.graph.ensure reference).keys := by simp [inv.node refers]
    obtain ⟨g', added', con', keys, edges⟩ := Graph.addEdge_spec con hs ht
    rw [added] at added'
    cases added'
    have grown : ∀ s t, w.graph.Edge s t → g.Edge s t := fun s t edge =>
      (edges s t).2 (Or.inl (by simpa using edge))
    have shrunk : ∀ s t, g.Edge s t → w.graph.Edge s t ∨ (s = reference ∧ t = key) := by
      intro s t edge
      simpa using (edges s t).1 edge
    refine ⟨⟨con', inv.acyclic.addEdge apart shrunk, ?_, inv.slots, ?_, ?_⟩,
      Or.inl ((edges _ _).2 (Or.inr ⟨rfl, rfl⟩)), fun k r old => old.mono grown fun _ hn => hn⟩
    · intro k e found
      simp [keys, inv.nodes k e found]
    · intro s t edge
      rcases shrunk s t edge with old | ⟨rfl, rfl⟩
      · exact inv.edges s t old
      · exact ⟨refers, inside⟩
    · exact fun n hn => (inv.notes n hn).mono (fun _ _ => id) grown
  · exact ⟨inv.tell (And.intro refers outside), Or.inr (Or.inl (by simp)),
      fun k r old => old.tell _⟩

/-! ## One entry -/

theorem Wired.contains_iff (inv : Wired limit bounds entries w) (key : String) :
    w.slots.contains key = true ↔ first? entries key ≠ none := by
  unfold Roster.contains
  rw [inv.slots, Option.isSome_map, Option.isSome_iff_ne_none]

theorem Wired.fresh (inv : Wired limit bounds entries w) {key : String}
    (absent : ¬ w.slots.contains key = true) : first? entries key = none := by
  by_contra known
  exact absent ((inv.contains_iff key).2 known)

theorem flagged_plain {graph : Graph} {slots : Roster Slot} {extra : List Note}
    (plain : ∀ n ∈ extra, n.Plain) :
    (Wiring.mk graph slots (w.notes ++ extra)).flagged = w.flagged := by
  have none : extra.flatMap Note.flagged = [] :=
    List.flatMap_eq_nil_iff.2 fun n hn => (plain n hn).flagged_eq_nil
  simp [flagged, none]

theorem Wired.sound_plain (inv : Wired limit bounds entries w) {more : List (String × Cell)}
    (refers : ∀ k r, Refers limit entries k r → Refers limit more k r) (key : String)
    {extra : List Note} (plain : ∀ n ∈ extra, n.Plain) :
    ∀ n ∈ w.notes ++ extra, n.Sound limit bounds more (w.graph.ensure key) := by
  intro n hn
  rcases List.mem_append.1 hn with old | new
  · apply (inv.notes n old).mono refers
    intro s t edge
    exact (Graph.edge_ensure w.graph key s t).2 edge
  · have isPlain := plain n new
    cases n with
    | closesLoop key reference path => exact absurd isPlain id
    | offGrid key reference => exact absurd isPlain id
    | _ => trivial

theorem Wired.edges_snoc (inv : Wired limit bounds entries w) (key : String) (e : String × Cell)
    (s t : String) (edge : (w.graph.ensure key).Edge s t) :
    Refers limit (entries ++ [e]) t s ∧ bounds.contains s = .ok true := by
  have old := inv.edges s t ((Graph.edge_ensure w.graph key s t).1 edge)
  exact ⟨old.1.snoc e, old.2⟩

/-- An entry whose key is there changes nothing but plain notes. -/
theorem Wired.repeated (inv : Wired limit bounds entries w) {e : String × Cell}
    {extra : List Note} (plain : ∀ n ∈ extra, n.Plain) (known : first? entries (upper e.1) ≠ none) :
    Wired limit bounds (entries ++ [e])
      ⟨w.graph.ensure (upper e.1), w.slots, w.notes ++ extra⟩ := by
  have same : ∀ key, first? (entries ++ [e]) key = first? entries key := by
    intro key
    rw [first?_snoc]
    split
    · rename_i here
      obtain ⟨found, hf⟩ := Option.ne_none_iff_exists'.1 (here ▸ known)
      rw [hf]
      rfl
    · exact Option.or_none
  refine ⟨inv.consistent.ensure _, inv.acyclic.ensure _, ?_, ?_, inv.edges_snoc _ e,
    inv.sound_plain (fun k r h => h.snoc e) (upper e.1) plain⟩
  · intro key found h
    rw [same] at h
    exact (w.graph.mem_keys_ensure _ _).2 (Or.inl (inv.nodes key found h))
  · intro key
    rw [flagged_plain plain, same]
    exact inv.slots key

/-- An entry that is put in keeps the laws; its references are still to be wired. -/
theorem Wired.plant (inv : Wired limit bounds entries w) {e : String × Cell} {extra : List Note}
    (plain : ∀ n ∈ extra, n.Plain) (fresh : first? entries (upper e.1) = none) :
    Wired limit bounds (entries ++ [e])
      ⟨w.graph.ensure (upper e.1), w.slots.put (upper e.1) (Slot.start limit e),
        w.notes ++ extra⟩ := by
  have unflagged : upper e.1 ∉ w.flagged := by
    intro h
    obtain ⟨r, found, hf, _⟩ := inv.refers_of_flagged h
    rw [fresh] at hf
    cases hf
  refine ⟨inv.consistent.ensure _, inv.acyclic.ensure _, ?_, ?_, inv.edges_snoc _ e,
    inv.sound_plain (fun k r h => h.snoc e) (upper e.1) plain⟩
  · intro key found h
    rw [first?_snoc] at h
    apply (w.graph.mem_keys_ensure _ _).2
    rcases known : first? entries key with _ | old
    · rw [known, Option.none_or] at h
      split at h
      · rename_i same
        exact Or.inr same.symm
      · cases h
    · exact Or.inl (inv.nodes key old known)
  · intro key
    rw [flagged_plain plain, first?_snoc]
    by_cases same : upper e.1 = key
    · subst same
      rw [Roster.get?_put_self, fresh]
      simp [unflagged]
    · rw [Roster.get?_put_of_ne _ (Ne.symm same), inv.slots, if_neg same, Option.or_none]

/-- The references of the formula at a key are wired one by one, and all are handled then. -/
theorem Wired.references (inv : Wired limit bounds entries w) {key : String}
    (others : ∀ k r, Refers limit entries k r → k ≠ key → w.Handled k r) {items : List String}
    (here : ∀ r, Refers limit entries key r ↔ r ∈ items) {w' : Wiring}
    (run : items.foldlM (Wiring.refer bounds key) w = .ok w') :
    Complete limit bounds entries w' := by
  have kept := foldlM_keeps
    (fun done v => Wired limit bounds entries v ∧
      ∀ k r, Refers limit entries k r → k ≠ key ∨ r ∈ done → v.Handled k r)
    ⟨inv, ?_⟩ ?_ run
  · refine ⟨kept.1, fun k r refers => kept.2 k r refers ?_⟩
    by_cases same : k = key
    · exact Or.inr ((here r).1 (same ▸ refers))
    · exact Or.inl same
  · exact fun k r refers other => others k r refers (other.resolve_right List.not_mem_nil)
  · intro done reference rest whole v v' ⟨invV, doneV⟩ step
    have refers : Refers limit entries key reference := (here reference).2 (by simp [whole])
    obtain ⟨invV', new, old⟩ := invV.refer refers step
    refine ⟨invV', fun k r hr when => ?_⟩
    by_cases just : k = key ∧ r = reference
    · exact just.1 ▸ just.2 ▸ new
    · apply old k r (doneV k r hr _)
      rcases when with other | member
      · exact Or.inl other
      · rcases List.mem_append.1 member with before | now
        · exact Or.inr before
        · exact Or.inl fun same => just ⟨same, List.mem_singleton.1 now⟩

/-- An entry that is wired keeps the laws, and leaves no reference that is not handled. -/
theorem Complete.enter {settings : Settings} (inv : Complete settings.limit bounds entries w)
    {e : String × Cell} {w' : Wiring} (h : Wiring.enter settings bounds w e = .ok w') :
    Complete settings.limit bounds (entries ++ [e]) w' := by
  obtain ⟨repeats, extra, plainRepeats, plain, step⟩ := enter_eq settings bounds e
  rw [step] at h
  split at h
  · rename_i present
    have known := (inv.contains_iff _).1 present
    cases h
    refine ⟨inv.repeated plainRepeats known, fun k r refers => ?_⟩
    have old : Refers settings.limit entries k r := by
      by_cases same : upper e.1 = k
      · exact (refers_snoc_of_some (same ▸ known)).1 refers
      · exact (refers_snoc_of_ne same).1 refers
    exact (inv.handled k r old).ensure _ _ _
  · rename_i absent
    have fresh := inv.fresh absent
    have here := first?_snoc_self fresh
    refine (inv.plant plain fresh).references ?_ (fun r => by simp [Refers, here]) h
    intro k r refers other
    have old := inv.handled k r ((refers_snoc_of_ne (Ne.symm other)).1 refers)
    exact old.ensure _ _ _

/-! ## All entries -/

theorem complete_empty (limit : Formula.Limit) (bounds : Bounds) : Complete limit bounds
    [] empty where
  toWired := wired_empty limit bounds
  handled _ _ refers := by
    obtain ⟨e, found, _⟩ := refers
    cases found

/-- Entries that are wired keep the laws, and every reference is handled. -/
theorem complete_of_run {settings : Settings} {w : Wiring}
    (h : entries.foldlM (enter settings bounds) empty = .ok w) :
    Complete settings.limit bounds entries w :=
  foldlM_keeps (fun done v => Complete settings.limit bounds done v)
    (complete_empty settings.limit bounds)
    (fun _ _ _ _ _ _ inv step => inv.enter step) h

end Wiring

end Worksheet
