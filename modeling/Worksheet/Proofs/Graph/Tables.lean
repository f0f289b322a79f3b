-- The same graph in three tables that nothing ties together. Whatever calls come, the tables are
-- those of one graph. So they have the same keys in the same order, an edge stands in both tables
-- of edges, and a call that fails was refused before it wrote anything.
import Worksheet.Proofs.Graph.Edges
import Worksheet.Proofs.Rosters

namespace Worksheet.Graph

/-! ## Three tables -/

/-- A graph in three tables. That they go together is not part of what they are. -/
structure Tables where
  nodes : Roster Unit
  /-- The keys that read a key. -/
  dependents : Roster (List String)
  /-- The keys that a key reads. -/
  dependencies : Roster (List String)

namespace Tables

def empty : Tables := ⟨.empty, .empty, .empty⟩

/-- The tables with a node for a key. A node that is there stays as it is. -/
def ensure (t : Tables) (key : String) : Tables :=
  if t.nodes.contains key then t
  else ⟨t.nodes.put key (), t.dependents.put key [], t.dependencies.put key []⟩

/-- What a table of edges lists under a key; nothing where it does not have the key. -/
def listed (edges : Roster (List String)) (key : String) : List String := (edges.get? key).getD []

def append (edges : Roster (List String)) (key other : String) :
    Except Fault (Roster (List String)) :=
  if edges.contains key then .ok (edges.modify key (· ++ [other])) else .error (.noNode key)

/-- Puts an edge in, first at its source, and says how the call ends. What was written stays also
where the list at the target is missing. -/
def addEdge (t : Tables) (source target : String) : Tables × Except Fault Unit :=
  if !t.nodes.contains source || !t.nodes.contains target then
    (t, .error (.noEndpoint source target))
  else if (listed t.dependents source).contains target then (t, .ok ())
  else
    match append t.dependents source target with
    | .error fault => (t, .error fault)
    | .ok dependents =>
      match append t.dependencies target source with
      | .error fault => ({ t with dependents }, .error fault)
      | .ok dependencies => ({ t with dependents, dependencies }, .ok ())

/-- The tables after a call, whether it fails or not. -/
def perform (t : Tables) : Call → Tables
  | .ensure key => t.ensure key
  | .addEdge source target => (t.addEdge source target).1

def built (calls : List Call) : Tables := calls.foldl perform empty

end Tables

/-- The three tables of a graph. -/
def tables (g : Graph) : Tables where
  nodes := g.nodes.map fun _ => ()
  dependents := g.nodes.map Links.dependents
  dependencies := g.nodes.map Links.dependencies

/-- What is left of a call in the tables of a graph, and how it ends. -/
def tablesAfter (g : Graph) : Except Fault Graph → Tables × Except Fault Unit
  | .ok h => (h.tables, .ok ())
  | .error fault => (g.tables, .error fault)

/-! ## One call -/

variable (g : Graph) (source target key : String)

theorem listed_dependents : Tables.listed g.tables.dependents key = g.dependents key := by
  rw [Tables.listed, tables, Roster.get?_map, dependents]

theorem listed_dependencies : Tables.listed g.tables.dependencies key = g.dependencies key := by
  rw [Tables.listed, tables, Roster.get?_map, dependencies]

theorem contains_tables : g.tables.nodes.contains key = g.contains key :=
  Roster.contains_map _ _ _

theorem tables_ensure : (g.ensure key).tables = g.tables.ensure key := by
  unfold ensure Tables.ensure
  rw [contains_tables]
  split
  · rfl
  · simp only [tables, ← Roster.put_map]

/-- An edge that is put at its source changes the table of those that read a key, and no other. -/
theorem tables_addDependent :
    (g.addDependent source target).tables =
      { g.tables with dependents := g.tables.dependents.modify source (· ++ [target]) } := by
  simp only [addDependent, tables, Tables.mk.injEq]
  refine ⟨?_, ?_, ?_⟩
  · exact Roster.map_modify_of_same (by simp) _ _
  · exact (Roster.modify_map (by simp) _ _).symm
  · exact Roster.map_modify_of_same (by simp) _ _

theorem tables_addDependency :
    (g.addDependency source target).tables =
      { g.tables with dependencies := g.tables.dependencies.modify target (· ++ [source]) } := by
  simp only [addDependency, tables, Tables.mk.injEq]
  refine ⟨?_, ?_, ?_⟩
  · exact Roster.map_modify_of_same (by simp) _ _
  · exact Roster.map_modify_of_same (by simp) _ _
  · exact (Roster.modify_map (by simp) _ _).symm

/-- A call on the tables of a graph does what it does to the graph: the list that an edge needs is
there at either end. -/
theorem addEdge_tables :
    g.tables.addEdge source target = g.tablesAfter (g.addEdge source target) := by
  unfold Tables.addEdge addEdge hasEdge
  simp only [contains_tables, listed_dependents]
  split
  · rfl
  split
  · rfl
  rename_i nodes _
  obtain ⟨hs, ht⟩ : g.contains source = true ∧ g.contains target = true := by simpa using nodes
  have atSource : g.tables.dependents.contains source = true :=
    (Roster.contains_map _ _ _).trans hs
  have atTarget : g.tables.dependencies.contains target = true :=
    (Roster.contains_map _ _ _).trans ht
  simp only [Tables.append, if_pos atSource, if_pos atTarget, tablesAfter, tables_addDependency,
    tables_addDependent]

theorem tables_perform (call : Call) : (g.perform call).tables = g.tables.perform call := by
  cases call with
  | ensure key => exact g.tables_ensure key
  | addEdge source target =>
    rw [Tables.perform, addEdge_tables]
    rcases added : g.addEdge source target with _ | h <;>
      simp only [perform, added, tablesAfter]

/-! ## Tables that go together -/

/-- The tables have the same keys in the same order, each edge stands in both tables of edges and
between nodes, and no list holds a key twice. -/
structure Tables.InStep (t : Tables) : Prop where
  dependents_keys : t.dependents.keys = t.nodes.keys
  dependencies_keys : t.dependencies.keys = t.nodes.keys
  mirror : ∀ source target,
    target ∈ listed t.dependents source ↔ source ∈ listed t.dependencies target
  dependents_mem : ∀ key, ∀ k ∈ listed t.dependents key, k ∈ t.nodes.keys
  dependencies_mem : ∀ key, ∀ k ∈ listed t.dependencies key, k ∈ t.nodes.keys
  dependents_nodup : ∀ key, (listed t.dependents key).Nodup
  dependencies_nodup : ∀ key, (listed t.dependencies key).Nodup

variable {g source target}

theorem keys_tables : g.tables.nodes.keys = g.keys := Roster.keys_map _ _

/-- A graph that keeps each edge at both its ends has tables that go together. -/
theorem Consistent.inStep (con : g.Consistent) : g.tables.InStep where
  dependents_keys := (Roster.keys_map _ _).trans keys_tables.symm
  dependencies_keys := (Roster.keys_map _ _).trans keys_tables.symm
  mirror s t := by
    rw [listed_dependents, listed_dependencies]
    exact con.mirror s t
  dependents_mem key k member := by
    rw [listed_dependents] at member
    rw [keys_tables]
    exact Edge.target_mem con member
  dependencies_mem key k member := by
    rw [listed_dependencies] at member
    rw [keys_tables]
    exact ((con.mirror k key).2 member).source_mem
  dependents_nodup key := by
    rw [listed_dependents]
    exact con.dependents_nodup key
  dependencies_nodup key := by
    rw [listed_dependencies]
    exact con.dependencies_nodup key

variable {t : Tables}

/-- An edge without one of its nodes is refused, and nothing is written. -/
theorem Tables.addEdge_refused (missing : source ∉ t.nodes.keys ∨ target ∉ t.nodes.keys) :
    t.addEdge source target = (t, .error (.noEndpoint source target)) := by
  have refused : (!t.nodes.contains source || !t.nodes.contains target) = true := by
    simpa [← Roster.contains_iff] using missing
  rw [addEdge, if_pos refused]

theorem Tables.InStep.addEdge_repeated (h : t.InStep)
    (there : target ∈ listed t.dependents source) : t.addEdge source target = (t, .ok ()) := by
  have hs := h.dependencies_mem target source ((h.mirror source target).1 there)
  have ht := h.dependents_mem source target there
  rw [← Roster.contains_iff] at hs ht
  have edge : (listed t.dependents source).contains target = true := by simpa using there
  rw [addEdge, if_neg (by simp [hs, ht]), if_pos edge]

theorem Tables.InStep.addEdge_new (h : t.InStep) (hs : source ∈ t.nodes.keys)
    (ht : target ∈ t.nodes.keys) (new : target ∉ listed t.dependents source) :
    t.addEdge source target =
      ({ t with
          dependents := t.dependents.modify source (· ++ [target])
          dependencies := t.dependencies.modify target (· ++ [source]) }, .ok ()) := by
  have atSource : t.dependents.contains source = true := by
    rwa [Roster.contains_iff, h.dependents_keys]
  have atTarget : t.dependencies.contains target = true := by
    rwa [Roster.contains_iff, h.dependencies_keys]
  rw [← Roster.contains_iff] at hs ht
  have edge : ¬ (listed t.dependents source).contains target = true := by simpa using new
  rw [addEdge, if_neg (by simp [hs, ht]), if_neg edge]
  simp only [append, if_pos atSource, if_pos atTarget]

/-! ## Runs of calls -/

/-- Whatever calls come, the tables are those of the graph that the calls build. -/
theorem tables_built (calls : List Call) : Tables.built calls = (built calls).tables := by
  have general : ∀ g : Graph,
      calls.foldl Tables.perform g.tables = (calls.foldl Graph.perform g).tables := by
    induction calls with
    | nil => exact fun g => rfl
    | cons call rest ih =>
      intro g
      rw [List.foldl_cons, List.foldl_cons, ← tables_perform, ih]
  exact general Graph.empty

/-- Whatever calls come, those that fail among them, the tables are those of the graph that the
calls build, and they go together. One more edge does to them what it does to the graph. Where one
of its nodes is missing it is refused, and where it is there already it is left alone, and both
leave all three tables as they were; any other edge is put into both tables of edges. -/
theorem three_tables_hold_one_graph (calls : List Call) :
    Tables.built calls = (built calls).tables ∧ (Tables.built calls).InStep ∧
    ∀ source target,
      let t := Tables.built calls
      t.addEdge source target = (built calls).tablesAfter ((built calls).addEdge source target) ∧
      ((source ∉ t.nodes.keys ∨ target ∉ t.nodes.keys) →
        t.addEdge source target = (t, .error (.noEndpoint source target))) ∧
      (target ∈ Tables.listed t.dependents source → t.addEdge source target = (t, .ok ())) ∧
      (source ∈ t.nodes.keys → target ∈ t.nodes.keys → target ∉ Tables.listed t.dependents source →
        t.addEdge source target =
          ({ t with
              dependents := t.dependents.modify source (· ++ [target])
              dependencies := t.dependencies.modify target (· ++ [source]) }, .ok ())) := by
  have together : (Tables.built calls).InStep := by
    rw [tables_built]
    exact (consistent_built calls).inStep
  refine ⟨tables_built calls, together, fun source target => ⟨?_, ?_, ?_, ?_⟩⟩
  · rw [tables_built, addEdge_tables]
  · exact Tables.addEdge_refused
  · exact together.addEdge_repeated
  · exact together.addEdge_new

/-- Calls with an edge before its nodes, an edge of a node to itself, and one that comes twice. -/
def hasty : List Call :=
  [.addEdge "A1" "B1", .ensure "A1", .ensure "B1", .addEdge "A1" "A1", .addEdge "A1" "B1",
    .addEdge "A1" "B1"]

theorem three_tables_hold_one_graph_of_hasty :
    "C1" ∉ (Tables.built hasty).nodes.keys ∧
    (Tables.built hasty).addEdge "A1" "C1" =
      (Tables.built hasty, .error (.noEndpoint "A1" "C1")) ∧
    "A1" ∈ Tables.listed (Tables.built hasty).dependents "A1" ∧
    (Tables.built hasty).addEdge "A1" "A1" = (Tables.built hasty, .ok ()) ∧
    ((Tables.built hasty).addEdge "B1" "A1").1.dependencies.get? "A1" = some ["A1", "B1"] := by
  obtain ⟨_, _, calls⟩ := three_tables_hold_one_graph hasty
  have missing : "C1" ∉ (Tables.built hasty).nodes.keys := by decide +kernel
  have there : "A1" ∈ Tables.listed (Tables.built hasty).dependents "A1" := by decide +kernel
  have added := (calls "B1" "A1").2.2.2 (by decide +kernel) (by decide +kernel) (by decide +kernel)
  refine ⟨missing, (calls "A1" "C1").2.1 (Or.inr missing), there, (calls "A1" "A1").2.2.1 there, ?_⟩
  rw [added]
  decide +kernel

end Worksheet.Graph
