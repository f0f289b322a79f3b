-- Which cell reads which. Every node keeps its edges at both ends: the keys that it reads, and the
-- keys that read it, each in the order in which they came. No edge stands twice.
import Worksheet.Error
import Worksheet.Roster

namespace Worksheet

structure Links where
  /-- The keys that the node reads. -/
  dependencies : List String
  /-- The keys that read the node. -/
  dependents : List String
  deriving DecidableEq, Repr

/-- The nodes, by key, in the order in which they came. -/
structure Graph where
  nodes : Roster Links

namespace Graph

def empty : Graph := ⟨Roster.empty⟩

def keys (g : Graph) : List String := g.nodes.keys

def size (g : Graph) : Nat := g.nodes.size

def contains (g : Graph) (key : String) : Bool := g.nodes.contains key

/-- The keys that a node reads; none where there is no such node. -/
def dependencies (g : Graph) (key : String) : List String :=
  ((g.nodes.get? key).map Links.dependencies).getD []

/-- The keys that read a node; none where there is no such node. -/
def dependents (g : Graph) (key : String) : List String :=
  ((g.nodes.get? key).map Links.dependents).getD []

def ensure (g : Graph) (key : String) : Graph :=
  if g.contains key then g else ⟨g.nodes.put key ⟨[], []⟩⟩

def hasEdge (g : Graph) (source target : String) : Bool := (g.dependents source).contains target

def addDependent (g : Graph) (source target : String) : Graph :=
  ⟨g.nodes.modify source fun l => { l with dependents := l.dependents ++ [target] }⟩

def addDependency (g : Graph) (source target : String) : Graph :=
  ⟨g.nodes.modify target fun l => { l with dependencies := l.dependencies ++ [source] }⟩

/-- The graph with an edge, where both its nodes are there. -/
def addEdge (g : Graph) (source target : String) : Except Fault Graph :=
  if !g.contains source || !g.contains target then .error (.noEndpoint source target)
  else if g.hasEdge source target then .ok g
  else .ok ((g.addDependent source target).addDependency source target)

/-- Writes an edge down without a look at what is there, first at its source. What was written
stays also where the target is missing. -/
def forceEdge (g : Graph) (source target : String) : Graph × Except Fault Unit :=
  if !g.contains source then (g, .error (.noNode source))
  else
    let g := g.addDependent source target
    if !g.contains target then (g, .error (.noNode target))
    else (g.addDependency source target, .ok ())

theorem keys_ensure (g : Graph) (key : String) :
    (g.ensure key).keys = if key ∈ g.keys then g.keys else g.keys ++ [key] := by
  unfold ensure
  by_cases present : g.contains key = true
  · have member : key ∈ g.keys := (g.nodes.contains_iff key).1 present
    rw [if_pos present, if_pos member]
  · have absent : key ∉ g.keys := fun h => present ((g.nodes.contains_iff key).2 h)
    rw [if_neg present, if_neg absent]
    exact (g.nodes.keys_put key ⟨[], []⟩).trans (if_neg absent)

end Graph

end Worksheet
