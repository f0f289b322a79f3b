-- What a wired table holds. Its nodes are the keys of the entries and the keys on the grid that
-- formulas name, and each reads the keys that its formula names, once and in the order of the text.
-- Where a bad reference is flagged some of them may be missing, and nowhere else.
import Mathlib.Logic.Function.Basic
import Worksheet.Proofs.Wiring.Laws

namespace Worksheet

open Worksheet.Text (upper)

/-! ## Names in order -/

/-- The keys that the first entry with a key names; none where there is no such entry. -/
def namedBy (limit : Formula.Limit) (entries : List (String × Cell)) (key : String) : List String :=
  (first? entries key).elim [] fun e => e.2.references limit

theorem mem_namedBy_iff {limit : Formula.Limit} {entries : List (String × Cell)}
    {key reference : String} :
    reference ∈ namedBy limit entries key ↔ Refers limit entries key reference := by
  unfold namedBy Refers
  rcases first? entries key with _ | e <;> simp

/-- A name that comes again is left out, and a new one stands last. -/
theorem eraseDups_snoc (names : List String) (name : String) :
    (names ++ [name]).eraseDups =
      if name ∈ names then names.eraseDups else names.eraseDups ++ [name] := by
  rw [List.eraseDups_append]
  by_cases again : name ∈ names <;> simp [List.removeAll, List.eraseDups_cons, again]

namespace Wiring

/-! ## The invariant -/

/-- The nodes, and what each of them reads, where `named` tells the names at each key that are wired
so far. -/
structure Listed (bounds : Bounds) (entries : List (String × Cell))
    (named : String → List String) (w : Wiring) : Prop where
  known : ∀ key ∈ w.graph.keys, first? entries key ≠ none ∨
    ∃ k, key ∈ named k ∧ bounds.contains key = .ok true
  sublist : ∀ key, (w.graph.dependencies key).Sublist (named key).eraseDups
  whole : ∀ key, key ∉ w.flagged → w.graph.dependencies key = (named key).eraseDups

variable {limit : Formula.Limit} {bounds : Bounds} {entries : List (String × Cell)}
  {named : String → List String} {w w' : Wiring}

theorem listed_empty (limit : Formula.Limit) (bounds : Bounds) :
    Listed bounds [] (namedBy limit []) empty where
  known _ node := by cases node
  sublist _ := List.nil_sublist _
  whole _ _ := rfl

/-! ## One reference -/

def withName (named : String → List String) (key name : String) : String → List String :=
  Function.update named key (named key ++ [name])

theorem mem_withName_iff {name k key new : String} :
    name ∈ withName named key new k ↔ name ∈ named k ∨ k = key ∧ name = new := by
  unfold withName
  by_cases same : k = key
  · subst same
    simp
  · simp [same]

/-- A new name comes last, and one that was there before changes nothing. -/
theorem eraseDups_withName (named : String → List String) (key name k : String) :
    (withName named key name k).eraseDups =
      if k = key ∧ name ∉ named key then (named k).eraseDups ++ [name]
      else (named k).eraseDups := by
  unfold withName
  by_cases same : k = key
  · subst same
    rw [Function.update_self, eraseDups_snoc]
    by_cases old : name ∈ named k <;> simp [old]
  · simp [same]

theorem Listed.known_withName (lists : Listed bounds entries named w) {k : String}
    (node : k ∈ w.graph.keys) (key reference : String) :
    first? entries k ≠ none ∨
      ∃ reader, k ∈ withName named key reference reader ∧ bounds.contains k = .ok true :=
  (lists.known k node).imp_right fun ⟨reader, member, inside⟩ =>
    ⟨reader, mem_withName_iff.2 (Or.inl member), inside⟩

theorem Listed.tell (lists : Listed bounds entries named w) {n : Note} {key : String}
    (flag : key ∈ n.flagged) (reference : String) :
    Listed bounds entries (withName named key reference) (w.tell n) where
  known k node := by
    rw [graph_tell] at node
    exact lists.known_withName node key reference
  sublist k := by
    rw [graph_tell, eraseDups_withName]
    split
    · exact (lists.sublist k).trans (List.sublist_append_left ..)
    · exact lists.sublist k
  whole k clear := by
    rw [flagged_tell, List.mem_append, not_or] at clear
    have other : k ≠ key := fun same => clear.2 (same ▸ flag)
    rw [graph_tell, eraseDups_withName, if_neg fun new => other new.1]
    exact lists.whole k clear.1

/-- A reference that was wired before is an edge now, unless it is refused again. -/
theorem Wired.edge_of_handled (inv : Wired limit bounds entries w) {key reference : String}
    (handled : w.Handled key reference) (apart : ¬ w.graph.Reaches key reference)
    (inside : bounds.contains reference = .ok true) : w.graph.Edge reference key := by
  rcases handled with edge | stray | ⟨path, loop⟩
  · exact edge
  · cases inside.symm.trans (inv.notes _ stray).2
  · exact absurd (inv.notes _ loop).2.reaches apart

/-- A reference that its key did not read so far is the last one that it reads now. -/
theorem Listed.dependencies_link (lists : Listed bounds entries named w)
    (inv : Wired limit bounds entries w) {key reference : String}
    (again : reference ∈ named key → w.graph.Edge reference key) {g : Graph}
    (added : (w.graph.ensure reference).addEdge reference key = .ok g) :
    g.keys = (w.graph.ensure reference).keys ∧
      ∀ k, g.dependencies k =
        if k = key ∧ reference ∉ named key then w.graph.dependencies k ++ [reference]
        else w.graph.dependencies k := by
  obtain ⟨sourceNode, targetNode⟩ := Graph.mem_of_addEdge added
  obtain ⟨g', added', keys, _, reads⟩ := Graph.addEdge_of_mem sourceNode targetNode
  cases added.symm.trans added'
  have edge : key ∈ w.graph.dependents reference ↔ reference ∈ named key := by
    refine ⟨fun edge => ?_, again⟩
    have read := (lists.sublist key).subset ((inv.consistent.mirror reference key).1 edge)
    exact List.mem_eraseDups.1 read
  refine ⟨keys, fun k => ?_⟩
  simp only [reads, Graph.dependents_ensure, Graph.dependencies_ensure, edge]
  split
  · rename_i new
    rw [new.1]
  · rfl

theorem Listed.link (lists : Listed bounds entries named w) (inv : Wired limit bounds entries w)
    {key reference : String} (again : reference ∈ named key → w.graph.Edge reference key)
    (inside : bounds.contains reference = .ok true) {g : Graph}
    (added : (w.graph.ensure reference).addEdge reference key = .ok g) :
    Listed bounds entries (withName named key reference) { w with graph := g } := by
  obtain ⟨keys, reads⟩ := lists.dependencies_link inv again added
  refine ⟨fun k node => ?_, fun k => ?_, fun k clear => ?_⟩
  · rw [keys, Graph.mem_keys_ensure] at node
    rcases node with old | rfl
    · exact lists.known_withName old key reference
    · exact Or.inr ⟨key, mem_withName_iff.2 (Or.inr ⟨rfl, rfl⟩), inside⟩
  · rw [reads, eraseDups_withName]
    split
    · exact (lists.sublist k).append (.refl _)
    · exact lists.sublist k
  · rw [reads, eraseDups_withName, lists.whole k clear]

theorem Listed.refer (lists : Listed bounds entries named w) (inv : Wired limit bounds entries w)
    {key reference : String} (again : reference ∈ named key → w.Handled key reference)
    (h : Wiring.refer bounds key w reference = .ok w') :
    Listed bounds entries (withName named key reference) w' := by
  rcases refer_cases inv.consistent h with ⟨path, _, isPath, rfl⟩ |
    ⟨_, apart, inside, g, added, rfl⟩ | ⟨_, _, rfl⟩
  · exact lists.tell isPath.start_mem reference
  · exact lists.link inv (fun old => inv.edge_of_handled (again old) apart inside) inside added
  · exact lists.tell (List.mem_singleton_self key) reference

/-! ## One entry -/

theorem namedBy_snoc_of_known {e : String × Cell} (known : first? entries (upper e.1) ≠ none) :
    namedBy limit (entries ++ [e]) = namedBy limit entries := by
  funext key
  unfold namedBy
  rw [first?_snoc]
  split
  · rename_i same
    obtain ⟨found, hf⟩ := Option.ne_none_iff_exists'.1 (same ▸ known)
    rw [hf]
    rfl
  · rw [Option.or_none]

theorem namedBy_snoc_of_fresh {e : String × Cell} (fresh : first? entries (upper e.1) = none) :
    namedBy limit (entries ++ [e]) =
      Function.update (namedBy limit entries) (upper e.1) (e.2.references limit) := by
  funext key
  unfold namedBy
  by_cases same : key = upper e.1
  · subst same
    rw [first?_snoc_self fresh, Function.update_self]
    rfl
  · rw [first?_snoc, if_neg (Ne.symm same), Option.or_none, Function.update_of_ne same]

theorem Listed.plant (lists : Listed bounds entries named w) {e : String × Cell}
    {slots : Roster Slot} {extra : List Note} (plain : ∀ n ∈ extra, n.Plain) :
    Listed bounds (entries ++ [e]) named
      ⟨w.graph.ensure (upper e.1), slots, w.notes ++ extra⟩ where
  known k node := by
    rcases (w.graph.mem_keys_ensure _ _).1 node with old | rfl
    · rcases lists.known k old with entry | named
      · obtain ⟨found, first⟩ := Option.ne_none_iff_exists'.1 entry
        exact Or.inl (by simp [first?_append first])
      · exact Or.inr named
    · exact Or.inl (by simp [first?_snoc])
  sublist k := by
    rw [Graph.dependencies_ensure]
    exact lists.sublist k
  whole k clear := by
    rw [flagged_plain plain] at clear
    rw [Graph.dependencies_ensure]
    exact lists.whole k clear

/-- The names of an entry that is wired are listed at its key. -/
theorem Listed.enter {settings : Settings} (inv : Complete settings.limit bounds entries w)
    (lists : Listed bounds entries (namedBy settings.limit entries) w) {e : String × Cell}
    (h : Wiring.enter settings bounds w e = .ok w') :
    Listed bounds (entries ++ [e]) (namedBy settings.limit (entries ++ [e])) w' := by
  obtain ⟨repeats, extra, plainRepeats, plain, step⟩ := enter_eq settings bounds e
  rw [step] at h
  split at h
  · rename_i present
    cases h
    rw [namedBy_snoc_of_known ((inv.contains_iff _).1 present)]
    exact lists.plant plainRepeats
  · rename_i absent
    have fresh := inv.fresh absent
    have here := first?_snoc_self fresh
    have start : namedBy settings.limit entries (upper e.1) = [] := by
      simp [namedBy, fresh]
    rw [namedBy_snoc_of_fresh fresh]
    -- Of the names of the formula those in `done` are wired and handled.
    refine (foldlM_keeps
      (fun done v => Wired settings.limit bounds (entries ++ [e]) v ∧
        (∀ r ∈ done, v.Handled (upper e.1) r) ∧
        Listed bounds (entries ++ [e])
          (Function.update (namedBy settings.limit entries) (upper e.1) done) v)
      ⟨inv.plant plain fresh, by simp, ?_⟩ ?_ h).2.2
    · rw [← start, Function.update_eq_self]
      exact lists.plant plain
    · intro done reference rest whole v v' ⟨invV, doneV, listsV⟩ ran
      have refers : Refers settings.limit (entries ++ [e]) (upper e.1) reference :=
        ⟨e, here, by simp [whole]⟩
      obtain ⟨invV', new, old⟩ := invV.refer refers ran
      refine ⟨invV', fun r member => ?_, ?_⟩
      · rcases List.mem_append.1 member with before | now
        · exact old _ r (doneV r before)
        · exact List.mem_singleton.1 now ▸ new
      · have listsV' := listsV.refer invV (fun again => doneV _ (by simpa using again)) ran
        simpa [withName] using listsV'

/-! ## All entries -/

theorem listed_of_run {settings : Settings}
    (h : entries.foldlM (enter settings bounds) empty = .ok w) :
    Listed bounds entries (namedBy settings.limit entries) w := by
  refine (foldlM_keeps
    (fun done v => Complete settings.limit bounds done v ∧
      Listed bounds done (namedBy settings.limit done) v)
    ⟨complete_empty settings.limit bounds, listed_empty settings.limit bounds⟩ ?_ h).2
  intro done e rest _ v v' ⟨inv, lists⟩ step
  exact ⟨inv.enter step, lists.enter inv step⟩

/-- A reference on the grid has a node, also where it is refused. -/
theorem Complete.node_of_refers (inv : Complete limit bounds entries w) {key reference : String}
    (refers : Refers limit entries key reference) (inside : bounds.contains reference = .ok true) :
    reference ∈ w.graph.keys := by
  rcases inv.handled key reference refers with edge | stray | ⟨path, loop⟩
  · exact edge.source_mem
  · cases inside.symm.trans (inv.notes _ stray).2
  · by_cases same : key = reference
    · exact same ▸ inv.node refers
    · exact ((inv.notes _ loop).2.reaches.nodes inv.consistent same).2

/-- The nodes are the keys of entries, and the references on the grid. -/
theorem Listed.mem_keys_iff (inv : Complete limit bounds entries w)
    (lists : Listed bounds entries (namedBy limit entries) w) (key : String) :
    key ∈ w.graph.keys ↔ (∃ e ∈ entries, upper e.1 = key) ∨
      ∃ k, Refers limit entries k key ∧ bounds.contains key = .ok true := by
  constructor
  · intro node
    rcases lists.known key node with entry | ⟨reader, member, inside⟩
    · obtain ⟨e, first⟩ := Option.ne_none_iff_exists'.1 entry
      exact Or.inl ⟨e, mem_of_first? first, upper_of_first? first⟩
    · exact Or.inr ⟨reader, mem_namedBy_iff.1 member, inside⟩
  · rintro (⟨e, member, rfl⟩ | ⟨reader, refers, inside⟩)
    · obtain ⟨found, first⟩ := exists_first? member
      exact inv.nodes _ found first
    · exact inv.node_of_refers refers inside

theorem Wired.slot_eq (inv : Wired limit bounds entries w) (key : String) :
    (w.slots.get? key).map (fun s => (s.entry, s.cell, s.tree)) =
      (first? entries key).map fun e => (e.1, e.2, e.2.parsed? limit) := by
  rw [inv.slots, Option.map_map]
  congr 1
  funext e
  simp only [Function.comp_apply]
  split <;> rfl

theorem Wired.namedBy_eq (inv : Wired limit bounds entries w) (key : String) :
    namedBy limit entries key =
      ((w.slots.get? key).bind Slot.tree).elim [] Formula.references := by
  rw [inv.slots, namedBy]
  rcases first? entries key with _ | e
  · rfl
  · rw [Option.map_some, Option.bind_some, Option.elim_some]
    split <;> rfl

theorem Wired.outcome_of_literal (inv : Wired limit bounds entries w) {key : String} {s : Slot}
    (found : w.slots.get? key = some s) (literal : s.isFormula = false) : s.outcome = none := by
  rw [inv.slots, Option.map_eq_some_iff] at found
  obtain ⟨e, first, same⟩ := found
  have unwritten : e.2.formula? = none := by
    have cell : s.cell = e.2 := by
      rw [← same]
      split <;> rfl
    simpa [Slot.isFormula, cell] using literal
  have start : Slot.start limit e = _ := Slot.start_of_literal unwritten
  rw [if_neg (inv.not_flagged first (congrArg Slot.tree start)), start] at same
  rw [← same]

/-- Where there is a formula and no error, nothing is flagged. -/
theorem Wired.clear_of_outcome (inv : Wired limit bounds entries w) {key : String} {s : Slot}
    (found : w.slots.get? key = some s) (clear : ∀ code, s.outcome ≠ some (.error code)) :
    key ∉ w.flagged := by
  intro flag
  rw [inv.slots, Option.map_eq_some_iff] at found
  obtain ⟨e, _, same⟩ := found
  rw [if_pos flag] at same
  exact clear .reference (same ▸ rfl)

end Wiring

/-- The nodes of a wired table are the keys of its entries and the keys on the grid that formulas
name, and no other. A node goes by the first entry that has its key, if there is one. Without a
formula that can be read it reads nothing, and without a formula it has no error. Else it reads
some of the keys that its formula names, each once and in the order of their first places, and
where it has no error it reads all of them. -/
theorem ofCells_lists_references {settings : Settings} {bounds : Bounds} {cells : Roster Cell}
    {w : Wiring} (wired : Wiring.ofCells settings bounds cells = .ok w) :
    (∀ key, key ∈ w.graph.keys ↔ (∃ e ∈ cells.entries, upper e.1 = key) ∨
      ∃ k, Refers settings.limit cells.entries k key ∧ bounds.contains key = .ok true) ∧
    (∀ key, (w.slots.get? key).map (fun s => (s.entry, s.cell, s.tree)) =
      (first? cells.entries key).map fun e => (e.1, e.2, e.2.parsed? settings.limit)) ∧
    ∀ key, (w.graph.dependencies key).Nodup ∧
      ((w.slots.get? key).bind Slot.tree = none → w.graph.dependencies key = []) ∧
      ∀ s, w.slots.get? key = some s →
        (s.isFormula = false → s.outcome = none) ∧
        ∀ f, s.tree = some f →
          (w.graph.dependencies key).Sublist f.references.eraseDups ∧
          ((∀ code, s.outcome ≠ some (.error code)) →
            w.graph.dependencies key = f.references.eraseDups) := by
  have inv := Wiring.complete_of_run wired
  have lists := Wiring.listed_of_run wired
  refine ⟨lists.mem_keys_iff inv, inv.slot_eq,
    fun key => ⟨inv.consistent.dependencies_nodup key, fun unread => ?_, fun s found => ?_⟩⟩
  · have sublist := lists.sublist key
    rw [inv.namedBy_eq, unread] at sublist
    exact List.sublist_nil.1 sublist
  · refine ⟨inv.outcome_of_literal found, fun f tree => ?_⟩
    have names : namedBy settings.limit cells.entries key = f.references := by
      simp [inv.namedBy_eq, found, tree]
    rw [← names]
    exact ⟨lists.sublist key, fun clear => lists.whole key (inv.clear_of_outcome found clear)⟩

/-- Entries with a formula that names a key twice, and one that names itself and a key off the
grid. -/
def repeating : Roster Cell :=
  .ofEntries [("a1", ⟨none, some "=B1+A2*b1", none⟩), ("B1", ⟨none, some "=B1+C9", none⟩)]

theorem ofCells_lists_references_of_repeating :
    ∃ w, Wiring.ofCells .usual ⟨["A", "B"], 2⟩ repeating = .ok w ∧ "A2" ∈ w.graph.keys ∧
      "C9" ∉ w.graph.keys ∧ w.graph.dependencies "A1" = ["B1", "A2"] := by
  have pending : ((Wiring.ofCells .usual ⟨["A", "B"], 2⟩ repeating).toOption.bind fun w =>
      (w.slots.get? "A1").bind fun s => s.tree.map fun f =>
        (f.references.eraseDups, s.outcome.isNone)) = some (["B1", "A2"], true) := by
    decide +kernel
  obtain ⟨w, result, pending⟩ := Option.bind_eq_some_iff.1 pending
  obtain ⟨s, found, pending⟩ := Option.bind_eq_some_iff.1 pending
  obtain ⟨f, tree, pending⟩ := Option.map_eq_some_iff.1 pending
  obtain ⟨names, unset⟩ := Prod.mk.inj pending
  have wired := eq_ok_of_toOption result
  obtain ⟨nodes, _, reads⟩ := ofCells_lists_references wired
  refine ⟨w, wired, (nodes "A2").2 (Or.inr ⟨"A1", ?_, ?_⟩), fun node => ?_, ?_⟩
  · exact ⟨("a1", ⟨none, some "=B1+A2*b1", none⟩), by decide +kernel, by decide +kernel⟩
  · exact eq_ok_of_toOption (by decide +kernel)
  · have other : ∀ e ∈ repeating.entries, upper e.1 ≠ "C9" := by decide +kernel
    have outside : (Bounds.contains ⟨["A", "B"], 2⟩ "C9").toOption = some false := by
      decide +kernel
    rcases (nodes "C9").1 node with ⟨e, member, same⟩ | ⟨_, _, inside⟩
    · exact other e member same
    · rw [inside] at outside
      cases outside
  · rw [← names]
    refine (((reads "A1").2.2 s found).2 f tree).2 fun code error => ?_
    rw [error] at unset
    cases unset

end Worksheet
