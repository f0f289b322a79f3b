-- The edges of a graph. Each is kept at both its ends, once, in every graph that comes of nodes and
-- edges put in one by one. A graph without loops stays so as long as no edge is put in from a key
-- to one that it can be reached from.
import Mathlib.Data.List.Nodup
import Mathlib.Logic.Relation
import Mathlib.Tactic.ByContra
import Worksheet.Graph.Basic

open Relation

namespace Worksheet.Graph

/-! ## What the operations do to the two lists -/

theorem mem_keys_iff (g : Graph) (key : String) : key ∈ g.keys ↔ g.contains key = true :=
  (g.nodes.contains_iff key).symm

theorem length_keys (g : Graph) : g.keys.length = g.size := by
  simp [keys, size, Roster.keys, Roster.size, Entries.keys]

theorem dependents_of_not_mem {g : Graph} {key : String} (h : key ∉ g.keys) :
    g.dependents key = [] := by
  unfold dependents
  rw [(g.nodes.get?_eq_none_iff key).2 h]
  rfl

theorem dependencies_of_not_mem {g : Graph} {key : String} (h : key ∉ g.keys) :
    g.dependencies key = [] := by
  unfold dependencies
  rw [(g.nodes.get?_eq_none_iff key).2 h]
  rfl

@[simp]
theorem mem_keys_ensure (g : Graph) (key k : String) :
    k ∈ (g.ensure key).keys ↔ k ∈ g.keys ∨ k = key := by
  rw [keys_ensure]
  split
  · rename_i present
    constructor
    · exact Or.inl
    · rintro (h | rfl)
      · exact h
      · exact present
  · simp

/-- What a node is for, once it is there, does not change because it is asked for again; a new
node has no edges. -/
theorem get?_ensure (g : Graph) (key k : String) :
    (g.ensure key).nodes.get? k =
      if k = key ∧ key ∉ g.keys then some ⟨[], []⟩ else g.nodes.get? k := by
  unfold ensure
  by_cases present : g.contains key = true
  · have member : key ∈ g.keys := (g.mem_keys_iff key).2 present
    rw [if_pos present, if_neg fun h => h.2 member]
  · have absent : key ∉ g.keys := fun h => present ((g.mem_keys_iff key).1 h)
    rw [if_neg present]
    by_cases same : k = key
    · subst same
      rw [if_pos ⟨rfl, absent⟩, Roster.get?_put_self]
    · rw [if_neg fun h => same h.1, Roster.get?_put_of_ne _ same]

@[simp]
theorem dependents_ensure (g : Graph) (key k : String) :
    (g.ensure key).dependents k = g.dependents k := by
  by_cases fresh : k = key ∧ key ∉ g.keys
  · obtain ⟨rfl, absent⟩ := fresh
    rw [dependents_of_not_mem absent]
    simp [dependents, get?_ensure, absent]
  · simp [dependents, get?_ensure, fresh]

@[simp]
theorem dependencies_ensure (g : Graph) (key k : String) :
    (g.ensure key).dependencies k = g.dependencies k := by
  by_cases fresh : k = key ∧ key ∉ g.keys
  · obtain ⟨rfl, absent⟩ := fresh
    rw [dependencies_of_not_mem absent]
    simp [dependencies, get?_ensure, absent]
  · simp [dependencies, get?_ensure, fresh]

theorem exists_links {g : Graph} {key : String} (h : key ∈ g.keys) :
    ∃ links, g.nodes.get? key = some links ∧ links.dependents = g.dependents key ∧
      links.dependencies = g.dependencies key := by
  rcases found : g.nodes.get? key with _ | links
  · exact absurd h ((g.nodes.get?_eq_none_iff key).1 found)
  · exact ⟨links, rfl, by simp [dependents, found], by simp [dependencies, found]⟩

theorem dependents_addDependent (g : Graph) {source : String} (h : source ∈ g.keys)
    (target k : String) :
    (g.addDependent source target).dependents k =
      if k = source then g.dependents source ++ [target] else g.dependents k := by
  by_cases same : k = source
  · subst same
    obtain ⟨links, found, hd, _⟩ := exists_links h
    simp [addDependent, dependents, Roster.get?_modify_self, found]
  · simp [addDependent, dependents, Roster.get?_modify_of_ne _ same, same]

theorem dependencies_addDependent (g : Graph) (source target k : String) :
    (g.addDependent source target).dependencies k = g.dependencies k := by
  by_cases same : k = source
  · subst same
    rcases found : g.nodes.get? k with _ | links <;>
      simp [addDependent, dependencies, Roster.get?_modify_self, found]
  · simp [addDependent, dependencies, Roster.get?_modify_of_ne _ same]

theorem dependencies_addDependency (g : Graph) {target : String} (h : target ∈ g.keys)
    (source k : String) :
    (g.addDependency source target).dependencies k =
      if k = target then g.dependencies target ++ [source] else g.dependencies k := by
  by_cases same : k = target
  · subst same
    obtain ⟨links, found, _, hd⟩ := exists_links h
    simp [addDependency, dependencies, Roster.get?_modify_self, found]
  · simp [addDependency, dependencies, Roster.get?_modify_of_ne _ same, same]

theorem dependents_addDependency (g : Graph) (source target k : String) :
    (g.addDependency source target).dependents k = g.dependents k := by
  by_cases same : k = target
  · subst same
    rcases found : g.nodes.get? k with _ | links <;>
      simp [addDependency, dependents, Roster.get?_modify_self, found]
  · simp [addDependency, dependents, Roster.get?_modify_of_ne _ same]

/-- An edge is put in where both its ends are nodes: once, and at the end of both lists. -/
theorem addEdge_of_mem {g : Graph} {source target : String} (hs : source ∈ g.keys)
    (ht : target ∈ g.keys) :
    ∃ h, g.addEdge source target = .ok h ∧ h.keys = g.keys ∧
      (∀ k, h.dependents k =
        if k = source ∧ target ∉ g.dependents source then g.dependents source ++ [target]
        else g.dependents k) ∧
      ∀ k, h.dependencies k =
        if k = target ∧ target ∉ g.dependents source then g.dependencies target ++ [source]
        else g.dependencies k := by
  have hs' := (g.mem_keys_iff source).1 hs
  have ht' := (g.mem_keys_iff target).1 ht
  unfold addEdge
  by_cases there : target ∈ g.dependents source
  · have edge : g.hasEdge source target = true := by simpa [hasEdge] using there
    refine ⟨g, by simp [hs', ht', edge], rfl, ?_, ?_⟩ <;> intro k <;> simp [there]
  · have edge : g.hasEdge source target = false := by simpa [hasEdge] using there
    have ht'' : target ∈ (g.addDependent source target).keys := by
      rw [keys, addDependent, Roster.keys_modify]
      exact ht
    refine ⟨_, by simp only [hs', ht', edge]; rfl, ?_, ?_, ?_⟩
    · exact (Roster.keys_modify _ _ _).trans (Roster.keys_modify _ _ _)
    · intro k
      rw [dependents_addDependency, dependents_addDependent g hs]
      simp [there]
    · intro k
      rw [dependencies_addDependency _ ht'']
      simp only [dependencies_addDependent]
      simp [there]

theorem mem_of_addEdge {g h : Graph} {source target : String}
    (added : g.addEdge source target = .ok h) : source ∈ g.keys ∧ target ∈ g.keys := by
  unfold addEdge at added
  split at added
  · cases added
  · rename_i nodes
    simpa [mem_keys_iff] using nodes

/-! ## Edges -/

/-- The key `target` reads `source`. -/
def Edge (g : Graph) (source target : String) : Prop := target ∈ g.dependents source

/-- Both ends of an edge know of it, and no list holds a key twice. -/
structure Consistent (g : Graph) : Prop where
  mirror : ∀ s t, g.Edge s t ↔ s ∈ g.dependencies t
  dependents_nodup : ∀ s, (g.dependents s).Nodup
  dependencies_nodup : ∀ t, (g.dependencies t).Nodup

theorem Edge.source_mem {g : Graph} {s t : String} (h : g.Edge s t) : s ∈ g.keys := by
  by_contra absent
  unfold Edge at h
  rw [dependents_of_not_mem absent] at h
  cases h

theorem Edge.target_mem {g : Graph} {s t : String} (con : g.Consistent) (h : g.Edge s t) :
    t ∈ g.keys := by
  by_contra absent
  have read := (con.mirror s t).1 h
  rw [dependencies_of_not_mem absent] at read
  cases read

theorem consistent_empty : empty.Consistent where
  mirror s t := by
    simp [Edge, empty, dependents, dependencies, Roster.empty, Roster.get?, Entries.get?]
  dependents_nodup s := by simp [empty, dependents, Roster.empty, Roster.get?, Entries.get?]
  dependencies_nodup t := by simp [empty, dependencies, Roster.empty, Roster.get?, Entries.get?]

@[simp]
theorem edge_ensure (g : Graph) (key s t : String) : (g.ensure key).Edge s t ↔ g.Edge s t := by
  unfold Edge
  rw [dependents_ensure]

theorem Consistent.ensure {g : Graph} (con : g.Consistent) (key : String) :
    (g.ensure key).Consistent where
  mirror s t := by rw [edge_ensure, dependencies_ensure]; exact con.mirror s t
  dependents_nodup s := by rw [dependents_ensure]; exact con.dependents_nodup s
  dependencies_nodup t := by rw [dependencies_ensure]; exact con.dependencies_nodup t

/-- What is to be known of a graph after an edge was put in: it is consistent, it has the same
nodes, and it has one edge more. -/
theorem addEdge_spec {g : Graph} (con : g.Consistent) {source target : String}
    (hs : source ∈ g.keys) (ht : target ∈ g.keys) :
    ∃ h, g.addEdge source target = .ok h ∧ h.Consistent ∧ h.keys = g.keys ∧
      ∀ s t, h.Edge s t ↔ g.Edge s t ∨ (s = source ∧ t = target) := by
  obtain ⟨h, added, hk, hd, hr⟩ := addEdge_of_mem hs ht
  have edges : ∀ s t, h.Edge s t ↔ g.Edge s t ∨ (s = source ∧ t = target) := by
    intro s t
    simp only [Edge, hd]
    split
    · rename_i new
      simp [new.1]
    · rename_i old
      constructor
      · exact Or.inl
      · rintro (h | ⟨rfl, rfl⟩)
        · exact h
        · by_contra absent
          exact old ⟨rfl, absent⟩
  refine ⟨h, added, ⟨?_, ?_, ?_⟩, hk, edges⟩
  · intro s t
    rw [edges, con.mirror, hr]
    split
    · rename_i new
      simp [new.1]
    · rename_i old
      constructor
      · rintro (h | ⟨rfl, rfl⟩)
        · exact h
        · by_contra absent
          exact old ⟨rfl, fun there => absent ((con.mirror _ _).1 there)⟩
      · exact Or.inl
  · intro s
    rw [hd]
    split
    · rename_i new
      rw [← List.concat_eq_append]
      exact (con.dependents_nodup source).concat new.2
    · exact con.dependents_nodup s
  · intro t
    rw [hr]
    split
    · rename_i new
      rw [← List.concat_eq_append]
      refine (con.dependencies_nodup target).concat fun there => new.2 ?_
      exact (con.mirror source target).2 there
    · exact con.dependencies_nodup t

/-! ## Loops -/

/-- From `start` edges lead to `goal`, or the two are one. -/
def Reaches (g : Graph) (start goal : String) : Prop := ReflTransGen g.Edge start goal

theorem reaches_ensure (g : Graph) (key start goal : String) :
    (g.ensure key).Reaches start goal ↔ g.Reaches start goal := by
  have same : (g.ensure key).Edge = g.Edge := by
    funext s t
    exact propext (edge_ensure g key s t)
  unfold Reaches
  rw [same]

/-- No key is read by itself, directly or through others. -/
def Acyclic (g : Graph) : Prop := ∀ key, ¬ TransGen g.Edge key key

theorem acyclic_empty : empty.Acyclic := by
  intro key loop
  obtain ⟨next, first, _⟩ := TransGen.head'_iff.1 loop
  have none := first.source_mem
  simp [keys, empty, Roster.keys, Roster.empty, Entries.keys] at none

theorem Acyclic.ensure {g : Graph} (acyclic : g.Acyclic) (key : String) :
    (g.ensure key).Acyclic := by
  intro k loop
  exact acyclic k (TransGen.mono (fun s t h => (edge_ensure g key s t).1 h) _ _ loop)

/-- A way through a graph with one edge more goes through the old graph, or over the new edge. -/
theorem transGen_addEdge {g h : Graph} {source target : String}
    (edges : ∀ s t, h.Edge s t → g.Edge s t ∨ (s = source ∧ t = target)) {a b : String}
    (way : TransGen h.Edge a b) :
    TransGen g.Edge a b ∨ (g.Reaches a source ∧ g.Reaches target b) := by
  induction way with
  | single edge =>
    rcases edges _ _ edge with old | ⟨rfl, rfl⟩
    · exact Or.inl (.single old)
    · exact Or.inr ⟨.refl, .refl⟩
  | tail _ edge ih =>
    rcases edges _ _ edge with old | ⟨rfl, rfl⟩
    · rcases ih with through | ⟨before, after⟩
      · exact Or.inl (through.tail old)
      · exact Or.inr ⟨before, after.tail old⟩
    · rcases ih with through | ⟨before, _⟩
      · exact Or.inr ⟨through.to_reflTransGen, .refl⟩
      · exact Or.inr ⟨before, .refl⟩

theorem reaches_addEdge {g h : Graph} {source target : String}
    (edges : ∀ s t, h.Edge s t ↔ g.Edge s t ∨ (s = source ∧ t = target)) (a b : String) :
    h.Reaches a b ↔ g.Reaches a b ∨ (g.Reaches a source ∧ g.Reaches target b) := by
  have grown : ∀ s t, g.Reaches s t → h.Reaches s t := fun _ _ =>
    ReflTransGen.mono (fun s t edge => (edges s t).2 (Or.inl edge)) _ _
  constructor
  · intro way
    rcases reflTransGen_iff_eq_or_transGen.1 way with rfl | steps
    · exact Or.inl .refl
    · exact (transGen_addEdge (fun s t => (edges s t).1) steps).imp_left TransGen.to_reflTransGen
  · rintro (old | ⟨before, after⟩)
    · exact grown a b old
    · have new : h.Edge source target := (edges source target).2 (Or.inr ⟨rfl, rfl⟩)
      exact ((grown a source before).tail new).trans (grown target b after)

theorem Acyclic.addEdge {g h : Graph} {source target : String} (acyclic : g.Acyclic)
    (apart : ¬ g.Reaches target source)
    (edges : ∀ s t, h.Edge s t → g.Edge s t ∨ (s = source ∧ t = target)) : h.Acyclic := by
  intro key loop
  rcases transGen_addEdge edges loop with old | ⟨before, after⟩
  · exact acyclic key old
  · exact apart (after.trans before)

/-- An edge closes a loop just where its source can be reached from its target. -/
theorem Acyclic.addEdge_iff {g h : Graph} {source target : String} (acyclic : g.Acyclic)
    (edges : ∀ s t, h.Edge s t ↔ g.Edge s t ∨ (s = source ∧ t = target)) :
    h.Acyclic ↔ ¬ g.Reaches target source := by
  constructor
  · intro loopless way
    have back : h.Reaches target source :=
      ReflTransGen.mono (fun s t edge => (edges s t).2 (Or.inl edge)) _ _ way
    exact loopless source (.head' ((edges source target).2 (Or.inr ⟨rfl, rfl⟩)) back)
  · intro apart
    exact acyclic.addEdge apart fun s t => (edges s t).1

/-- A key on a loop, or one that a loop leads to. -/
def Looped (g : Graph) (key : String) : Prop := ∃ c, TransGen g.Edge c c ∧ g.Reaches c key

theorem Looped.tail {g : Graph} {key next : String} (h : g.Looped key) (edge : g.Edge key next) :
    g.Looped next := by
  obtain ⟨c, loop, way⟩ := h
  exact ⟨c, loop, way.tail edge⟩

theorem Looped.mem {g : Graph} (con : g.Consistent) {key : String} (h : g.Looped key) :
    key ∈ g.keys := by
  obtain ⟨c, loop, way⟩ := h
  obtain ⟨last, _, edge⟩ := TransGen.tail'_iff.1 (loop.trans_left way)
  exact edge.target_mem con

theorem acyclic_iff (g : Graph) : g.Acyclic ↔ ∀ key, ¬ g.Looped key := by
  constructor
  · rintro acyclic key ⟨c, loop, _⟩
    exact acyclic c loop
  · exact fun off key loop => off key ⟨key, loop, .refl⟩

/-! ## Graphs that are built call by call -/

/-- A call that puts a node or an edge into a graph. -/
inductive Call
  | ensure (key : String)
  | addEdge (source target : String)

/-- The graph after a call. A call that fails leaves it as it was. -/
def perform (g : Graph) : Call → Graph
  | .ensure key => g.ensure key
  | .addEdge source target =>
    match g.addEdge source target with
    | .ok h => h
    | .error _ => g

def built (calls : List Call) : Graph := calls.foldl perform empty

theorem Consistent.perform {g : Graph} (con : g.Consistent) (call : Call) :
    (g.perform call).Consistent := by
  cases call with
  | ensure key => exact con.ensure key
  | addEdge source target =>
    rcases added : g.addEdge source target with fault | h <;> simp only [Graph.perform, added]
    · exact con
    · obtain ⟨hs, ht⟩ := mem_of_addEdge added
      obtain ⟨h', added', con', _⟩ := addEdge_spec con hs ht
      cases added.symm.trans added'
      exact con'

/-- Whatever calls come, in whatever order, each edge is kept at both its ends. -/
theorem consistent_built (calls : List Call) : (built calls).Consistent := by
  have general : ∀ g : Graph, g.Consistent → (calls.foldl Graph.perform g).Consistent := by
    induction calls with
    | nil => exact fun g con => con
    | cons call rest ih => exact fun g con => ih _ (con.perform call)
  exact general empty consistent_empty

end Worksheet.Graph
