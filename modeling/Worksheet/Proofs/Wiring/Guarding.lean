-- Graphs that are built with a look back. Where an edge is put in only after the test for a loop
-- has found none, there is an order at every time, and the test foretells whether there is one with
-- one edge more. A wired table is built in this way.
import Worksheet.Proofs.Graph.Sorting
import Worksheet.Proofs.Wiring.Steps

namespace Worksheet

open Worksheet.Text (upper)

namespace Graph

/-- The graphs that come of nodes, and of edges between nodes that close no loop when they are put
in, in any number and order. -/
inductive Guarded : Graph → Prop
  | empty : Guarded empty
  | ensure {g : Graph} (built : Guarded g) (key : String) : Guarded (g.ensure key)
  | addEdge {g h : Graph} {source target : String} (built : Guarded g)
    (sourceNode : source ∈ g.keys) (targetNode : target ∈ g.keys)
    (tested : g.closesCycle source target = .ok false)
    (added : g.addEdge source target = .ok h) : Guarded h

variable {g : Graph}

theorem Guarded.consistent_acyclic (built : g.Guarded) : g.Consistent ∧ g.Acyclic := by
  induction built with
  | empty => exact ⟨consistent_empty, acyclic_empty⟩
  | ensure _ key ih => exact ⟨ih.1.ensure key, ih.2.ensure key⟩
  | @addEdge g h source target _ sourceNode targetNode tested added ih =>
    obtain ⟨con, acyclic⟩ := ih
    obtain ⟨h', added', con', _, edges⟩ := addEdge_spec con sourceNode targetNode
    cases added.symm.trans added'
    refine ⟨con', (acyclic.addEdge_iff edges).2 fun way => ?_⟩
    obtain ⟨closes, tested', foretells⟩ := closesCycle_spec con source target
    cases tested.symm.trans tested'
    exact Bool.false_ne_true (foretells.2 way)

/-- In a guarded graph the test for a loop says whether one more edge leaves it without an order. -/
theorem Guarded.closes_iff_stuck (built : g.Guarded) {source target : String}
    (sourceNode : source ∈ g.keys) (targetNode : target ∈ g.keys) :
    ∃ h closes, g.addEdge source target = .ok h ∧ g.closesCycle source target = .ok closes ∧
      (closes = true ↔ ∃ stuck, h.order = .error (.cycle stuck)) := by
  obtain ⟨con, acyclic⟩ := built.consistent_acyclic
  obtain ⟨h, added, con', _, edges⟩ := addEdge_spec con sourceNode targetNode
  obtain ⟨closes, tested, foretells⟩ := closesCycle_spec con source target
  refine ⟨h, closes, added, tested, ?_⟩
  rw [foretells, order_eq_cycle_iff con', acyclic.addEdge_iff edges, not_not]

end Graph

namespace Wiring

variable {bounds : Bounds} {key : String} {w w' : Wiring}

theorem refer_guarded (built : w.graph.Guarded) {reference : String}
    (h : refer bounds key w reference = .ok w') : w'.graph.Guarded := by
  have con := built.consistent_acyclic.1
  rcases refer_cases con h with ⟨path, _, _, rfl⟩ | ⟨_, apart, _, g, added, rfl⟩ | ⟨_, _, rfl⟩
  · simpa using built
  · obtain ⟨sourceNode, targetNode⟩ := Graph.mem_of_addEdge added
    obtain ⟨closes, tested, foretells⟩ :=
      Graph.closesCycle_spec (con.ensure reference) reference key
    rw [Graph.reaches_ensure] at foretells
    cases closes with
    | true => exact absurd (foretells.1 rfl) apart
    | false => exact (built.ensure reference).addEdge sourceNode targetNode tested added
  · simpa using built

theorem enter_guarded {settings : Settings} (built : w.graph.Guarded) {e : String × Cell}
    (h : enter settings bounds w e = .ok w') : w'.graph.Guarded := by
  obtain ⟨repeats, extra, _, _, step⟩ := enter_eq settings bounds e
  rw [step] at h
  split at h
  · cases h
    exact built.ensure _
  · exact foldlM_keeps (fun _ v => v.graph.Guarded) (built.ensure _)
      (fun _ _ _ _ _ _ now ran => refer_guarded now ran) h

theorem ofCells_guarded {settings : Settings} {cells : Roster Cell}
    (h : ofCells settings bounds cells = .ok w) : w.graph.Guarded :=
  foldlM_keeps (fun _ v => v.graph.Guarded) .empty
    (fun _ _ _ _ _ _ now ran => enter_guarded now ran) h

end Wiring

/-- Where edges are put in only after the test has found no loop, the graph has an order, and the
test says of every further edge whether there is still one with it. The graph of a wired table
has an order, whatever its formulas name. -/
theorem guarded_graphs_have_an_order :
    (∀ g : Graph, g.Guarded →
      (∃ order, g.order = .ok order ∧ g.IsOrder order) ∧
      ∀ source ∈ g.keys, ∀ target ∈ g.keys, ∃ h closes,
        g.addEdge source target = .ok h ∧ g.closesCycle source target = .ok closes ∧
          (closes = true ↔ ∃ stuck, h.order = .error (.cycle stuck))) ∧
    ∀ settings bounds cells w, Wiring.ofCells settings bounds cells = .ok w →
      ∃ order, w.graph.order = .ok order ∧ w.graph.IsOrder order := by
  have ordered : ∀ g : Graph, g.Guarded → ∃ order, g.order = .ok order ∧ g.IsOrder order := by
    intro g built
    obtain ⟨con, acyclic⟩ := built.consistent_acyclic
    exact Graph.order_spec con acyclic
  refine ⟨fun g built => ⟨ordered g built, fun source sourceNode target targetNode => ?_⟩, ?_⟩
  · exact built.closes_iff_stuck sourceNode targetNode
  · exact fun settings bounds cells w wired => ordered w.graph (Wiring.ofCells_guarded wired)

def Graph.pair : Graph := (empty.ensure "A1").ensure "B1"

/-- The graph of one edge has an order, and none with the edge back; the graph of two formulas that
name each other has one. -/
theorem guarded_graphs_have_an_order_of_link :
    (∃ g h order stuck, Graph.Guarded g ∧ g.Edge "A1" "B1" ∧ g.order = .ok order ∧
      g.closesCycle "B1" "A1" = .ok true ∧ g.addEdge "B1" "A1" = .ok h ∧
        h.order = .error (.cycle stuck)) ∧
    ∃ w order, Wiring.ofCells .usual ⟨["A", "B"], 1⟩ (.ofEntries
      [("A1", ⟨none, some "=B1", none⟩), ("B1", ⟨none, some "=A1", none⟩)]) = .ok w ∧
        w.graph.order = .ok order := by
  obtain ⟨guarded, wiredTables⟩ := guarded_graphs_have_an_order
  constructor
  · have nodes : Graph.pair.Guarded := (Graph.Guarded.empty.ensure "A1").ensure "B1"
    have sourceNode : "A1" ∈ Graph.pair.keys := by decide
    have targetNode : "B1" ∈ Graph.pair.keys := by decide
    have tested : (Graph.pair.closesCycle "A1" "B1").toOption = some false := by decide +kernel
    obtain ⟨g, added, con, keys, edges⟩ :=
      Graph.addEdge_spec nodes.consistent_acyclic.1 sourceNode targetNode
    have built : g.Guarded := nodes.addEdge sourceNode targetNode (eq_ok_of_toOption tested) added
    have edge : g.Edge "A1" "B1" := (edges _ _).2 (Or.inr ⟨rfl, rfl⟩)
    obtain ⟨⟨order, sorted, _⟩, foretells⟩ := guarded g built
    obtain ⟨h, closes, added', closed, foretold⟩ :=
      foretells "B1" (keys ▸ targetNode) "A1" (keys ▸ sourceNode)
    obtain ⟨closes', closed', reached⟩ := Graph.closesCycle_spec con "B1" "A1"
    cases closed.symm.trans closed'
    cases reached.2 (.single edge)
    obtain ⟨stuck, stopped⟩ := foretold.1 rfl
    exact ⟨g, h, order, stuck, built, edge, sorted, closed, added', stopped⟩
  · have returns : (Wiring.ofCells .usual ⟨["A", "B"], 1⟩ (.ofEntries
        [("A1", ⟨none, some "=B1", none⟩), ("B1", ⟨none, some "=A1", none⟩)])).toOption.isSome =
          true := by decide +kernel
    obtain ⟨w, result⟩ := Option.isSome_iff_exists.1 returns
    have wired := eq_ok_of_toOption result
    obtain ⟨order, sorted, _⟩ := wiredTables _ _ _ w wired
    exact ⟨w, order, wired, sorted⟩

end Worksheet
