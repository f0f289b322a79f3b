-- Paths from a key to the keys that read it, directly or through others. The search goes on from
-- the key that it found last, and takes no key twice.
import Worksheet.Graph.Basic

namespace Worksheet.Graph

/-- What the search has seen, and the paths that it has still to go on from. A path is written
from its end back to its start. -/
structure Frontier where
  visited : List String
  stack : List (List String)

/-- What comes of a look at some keys. -/
inductive Sight
  | goal (path : List String)
  | beyond (f : Frontier)

/-- Looks at the keys that read the end of a path, and keeps those that are new. -/
def look (goal : String) (path : List String) : List String → Frontier → Sight
  | [], f => .beyond f
  | key :: rest, f =>
    if f.visited.contains key then look goal path rest f
    else if key = goal then .goal (key :: path)
    else look goal path rest ⟨key :: f.visited, (key :: path) :: f.stack⟩

/-- The path to the goal from what is on the stack. A turn takes one path off it; no key ends two
paths, so there are no more turns than nodes, and one for a key that is no node. -/
def search (g : Graph) (goal : String) : Nat → Frontier → Except Fault (Option (List String))
  | _, ⟨_, []⟩ => .ok none
  | _, ⟨_, [] :: _⟩ => .ok none
  | 0, _ => .ok none
  | turns + 1, ⟨visited, (key :: path) :: stack⟩ =>
    match g.nodes.get? key with
    | none => .error (.noNode key)
    | some links =>
      match look goal (key :: path) links.dependents ⟨visited, stack⟩ with
      | .goal found => .ok (some found.reverse)
      | .beyond f => search g goal turns f

def findPath (g : Graph) (start goal : String) : Except Fault (Option (List String)) :=
  if !g.contains start || !g.contains goal then .ok none
  else if start = goal then .ok (some [start])
  else g.search goal (g.size + 1) ⟨[start], [[start]]⟩

/-- The path from `target` to `source` that an edge from `source` to `target` closes to a loop. -/
def cyclePath (g : Graph) (source target : String) : Except Fault (Option (List String)) :=
  if source = target then .ok (some [target]) else g.findPath target source

def closesCycle (g : Graph) (source target : String) : Except Fault Bool := do
  let path ← g.cyclePath source target
  .ok path.isSome

end Worksheet.Graph
