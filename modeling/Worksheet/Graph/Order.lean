-- The order of a graph: every key after the keys that it reads. Keys that wait for none come first,
-- in the order of the nodes; a key joins the queue when the last one that it waits for is out.
import Worksheet.Graph.Basic

namespace Worksheet.Graph

abbrev Counts := Roster Int

/-- One key that a key waits for is out. -/
def release (counts : Counts) (key : String) : Except Fault (Counts × Int) :=
  match counts.get? key with
  | none => .error (.noNode key)
  | some n => .ok (counts.put key (n - 1), n - 1)

/-- A key is out: each key in the list waits for one less, and those that wait for none are
ready, in the order of the list. -/
def releaseAll : List String → Counts → Except Fault (Counts × List String)
  | [], counts => .ok (counts, [])
  | key :: rest, counts => do
    let (counts, left) ← release counts key
    let (counts, ready) ← releaseAll rest counts
    .ok (counts, if left = 0 then key :: ready else ready)

/-- Takes keys off the queue. No key joins it twice, so there are no more turns than nodes. -/
def drain (g : Graph) : Nat → List String → Counts → Except Fault (List String × Counts)
  | _, [], counts => .ok ([], counts)
  | 0, _, counts => .ok ([], counts)
  | turns + 1, key :: queue, counts => do
    let (counts, ready) ← releaseAll (g.dependents key) counts
    let (order, counts) ← drain g turns (queue ++ ready) counts
    .ok (key :: order, counts)

def waiting (g : Graph) : Counts :=
  .ofEntries (g.nodes.entries.map fun e => (e.1, (e.2.dependencies.length : Int)))

/-- The keys whose count `p` accepts, in the order of the nodes. -/
def countedBy (p : Int → Bool) (g : Graph) (counts : Counts) : List String :=
  g.keys.filter fun key => (counts.get? key).any p

/-- All keys, each after those that it reads. Where some keys wait for each other there is no such
order, and the fault names the keys that are left. -/
def order (g : Graph) : Except Fault (List String) := do
  let counts := g.waiting
  let (order, counts) ← g.drain g.size (countedBy (· == 0) g counts) counts
  if order.length = g.size then .ok order
  else .error (.cycle (countedBy (fun n => 0 < n) g counts))

end Worksheet.Graph
