-- Ties in the order of a graph. Of two keys the one comes first that is ready first: the last key
-- that it reads is out before the other's. Keys that are ready at once come in the order of the
-- edges that made them ready; the order of the nodes by itself does not decide.
import Mathlib.Data.List.Pairwise
import Worksheet.Proofs.Graph.Sorting
import Worksheet.Proofs.Runs

open Relation

namespace Worksheet.Graph

def roots (g : Graph) : List String := g.keys.filter fun k => (g.dependencies k).isEmpty

/-- Of the keys that read `key`, those that wait for none once it is out after those of `out`. -/
def freed (g : Graph) (out : List String) (key : String) : List String :=
  (g.dependents key).filter fun k => g.waits (out ++ [key]) k = 0

/-- The keys that are freed while the keys of a list get out, one after the other. -/
def freedBy (g : Graph) (out : List String) : List String → List String
  | [] => []
  | key :: rest => g.freed out key ++ g.freedBy (out ++ [key]) rest

/-- The key that comes last in the order of those that `key` reads. -/
def lastRead? (g : Graph) (order : List String) (key : String) : Option String :=
  (order.filter (· ∈ g.dependencies key)).getLast?

/-- When a key is ready, and which place it has among those that are ready then: a key that reads
nothing is ready at the start, and has its place among the nodes; any other is ready when the last
key that it reads is out, and has its place among the keys that read this one. -/
def readiness (g : Graph) (order : List String) (key : String) : Nat × Nat :=
  match g.lastRead? order key with
  | none => (0, g.keys.idxOf key)
  | some last => (order.idxOf last + 1, (g.dependents last).idxOf key)

/-- One key is ready before another, or at the same time and has its place before it. -/
def ReadyBefore (g : Graph) (order : List String) (a b : String) : Prop :=
  Prod.Lex (· < ·) (· < ·) (g.readiness order a) (g.readiness order b)

instance (g : Graph) (order : List String) (a b : String) : Decidable (g.ReadyBefore order a b) :=
  inferInstanceAs (Decidable (Prod.Lex (· < ·) (· < ·) _ _))

variable {g : Graph} {out queue order before rest : List String} {counts : Counts} {key k : String}

theorem Draining.freed_eq (con : g.Consistent) (inv : g.Draining out (key :: queue) counts)
    {counts' : Counts} {ready : List String}
    (released : releaseAll (g.dependents key) counts = .ok (counts', ready)) :
    ready = g.freed out key := by
  have fresh : key ∉ out := fun h => (List.nodup_append.1 inv.nodup).2.2 key h key (by simp) rfl
  have waited := waits_snoc con fresh
  have known : ∀ k ∈ g.dependents key, counts.get? k = some (g.waits out k : Int) :=
    fun k hk => inv.counts k (Edge.target_mem con hk)
  obtain ⟨_, same, _⟩ := releaseAll_spec (con.dependents_nodup key) known
  cases released.symm.trans same
  refine List.filter_congr fun k hk => ?_
  have here := waited k
  rw [if_pos hk] at here
  rw [decide_eq_decide, ← here]
  omega

/-- What is taken off the queue is what was on it, and then what is freed meanwhile. -/
theorem drain_eq (con : g.Consistent) {turns : Nat} (inv : g.Draining out queue counts)
    (room : g.size ≤ out.length + turns) {counts' : Counts}
    (drained : g.drain turns queue counts = .ok (rest, counts')) :
    rest = queue ++ g.freedBy out rest := by
  induction turns generalizing out queue counts rest with
  | zero =>
    cases queue with
    | nil =>
      cases drained
      rfl
    | cons key queue =>
      have few := inv.nodup.length_le_of_subset inv.nodes
      rw [length_keys, List.length_append, List.length_cons] at few
      omega
  | succ turns ih =>
    cases queue with
    | nil =>
      cases drained
      rfl
    | cons key queue =>
      obtain ⟨counts₁, ready, released, inv₁⟩ := inv.turn con
      obtain rfl := inv.freed_eq con released
      simp only [drain, released, bind, Except.bind] at drained
      split at drained
      · cases drained
      · rename_i later drainedLater
        cases drained
        have room₁ : g.size ≤ (out ++ [key]).length + turns := by
          rw [List.length_append, List.length_singleton]
          omega
        have next := ih inv₁ room₁ drainedLater
        rw [freedBy, List.cons_append, ← List.append_assoc, ← next]

theorem countedBy_waiting (g : Graph) : countedBy (· == 0) g g.waiting = g.roots := by
  refine List.filter_congr fun k hk => ?_
  rw [get?_waiting hk]
  rcases g.dependencies k with _ | ⟨d, rest⟩
  · rfl
  · have some : (rest.length : Int) + 1 ≠ 0 := by omega
    simpa using some

/-- An order starts with the keys that read nothing, and goes on with those that are freed. -/
theorem order_eq (con : g.Consistent) (found : g.order = .ok order) :
    order = g.roots ++ g.freedBy [] order := by
  have room : g.size ≤ ([] : List String).length + g.size := by simp
  unfold Graph.order at found
  obtain ⟨⟨order', counts⟩, drained, found⟩ := exists_of_bind found
  have eq := drain_eq con g.draining_start room drained
  rw [countedBy_waiting] at eq
  simp only at found
  split at found
  · cases found
    exact eq
  · cases found

theorem mem_freedBy (out : List String) (whole : order = out ++ rest)
    (member : k ∈ g.freedBy out rest) :
    ∃ before key after, order = before ++ key :: after ∧ out.length ≤ before.length ∧
      k ∈ g.freed before key := by
  induction rest generalizing out with
  | nil => cases member
  | cons key rest ih =>
    rcases List.mem_append.1 member with here | later
    · exact ⟨out, key, rest, whole, Nat.le_refl _, here⟩
    · obtain ⟨before, key', after, whole', longer, freed⟩ :=
        ih (out ++ [key]) (by simpa using whole) later
      rw [List.length_append] at longer
      exact ⟨before, key', after, whole', by omega, freed⟩

theorem readiness_of_root (order : List String) (root : k ∈ g.roots) :
    g.readiness order k = (0, g.keys.idxOf k) := by
  have none : g.dependencies k = [] := by simpa using (List.mem_filter.1 root).2
  simp [readiness, lastRead?, none]

theorem readiness_of_freed (con : g.Consistent) (nodup : order.Nodup)
    (whole : order = before ++ key :: rest) (freed : k ∈ g.freed before key) :
    g.readiness order k = (before.length + 1, (g.dependents key).idxOf k) := by
  obtain ⟨edge, free⟩ := List.mem_filter.1 freed
  have reads : key ∈ g.dependencies k := (con.mirror key k).1 edge
  have out := (g.waits_eq_zero_iff _ _).1 (of_decide_eq_true free)
  rw [whole, List.nodup_append, List.nodup_cons] at nodup
  obtain ⟨-, ⟨once, -⟩, apart⟩ := nodup
  have fresh : key ∉ before := fun h => apart key h key (List.mem_cons_self ..) rfl
  have after : rest.filter (· ∈ g.dependencies k) = [] := by
    refine List.filter_eq_nil_iff.2 fun d later read => ?_
    rcases List.mem_append.1 (out d (of_decide_eq_true read)) with early | same
    · exact apart d early d (List.mem_cons_of_mem _ later) rfl
    · exact once (List.mem_singleton.1 same ▸ later)
  have last : g.lastRead? order k = some key := by
    rw [lastRead?, whole, List.filter_append, List.filter_cons_of_pos (by simpa using reads), after]
    simp
  have place : order.idxOf key = before.length := by
    rw [whole, List.idxOf_append_of_notMem fresh, List.idxOf_cons_self, Nat.add_zero]
  simp only [readiness, last, place]

theorem pairwise_idxOf {l : List String} (nodup : l.Nodup) :
    l.Pairwise fun a b => l.idxOf a < l.idxOf b := by
  rw [List.pairwise_iff_getElem]
  intro i j hi hj less
  rw [nodup.idxOf_getElem i hi, nodup.idxOf_getElem j hj]
  exact less

theorem pairwise_freed (con : g.Consistent) (nodup : order.Nodup)
    (whole : order = before ++ key :: rest) :
    (g.freed before key).Pairwise (g.ReadyBefore order) := by
  have places := (pairwise_idxOf (con.dependents_nodup key)).filter
    fun k => decide (g.waits (before ++ [key]) k = 0)
  refine places.imp_of_mem fun {a b} ha hb less => ?_
  rw [ReadyBefore, readiness_of_freed con nodup whole ha, readiness_of_freed con nodup whole hb]
  exact .right _ less

theorem pairwise_freedBy (con : g.Consistent) (nodup : order.Nodup) (whole : order = out ++ rest) :
    (g.freedBy out rest).Pairwise (g.ReadyBefore order) := by
  induction rest generalizing out with
  | nil => exact .nil
  | cons key rest ih =>
    have whole' : order = (out ++ [key]) ++ rest := by simpa using whole
    refine List.pairwise_append.2 ⟨pairwise_freed con nodup whole, ih whole', ?_⟩
    intro a ha b hb
    obtain ⟨before, key', after, later, longer, freed⟩ := mem_freedBy _ whole' hb
    rw [ReadyBefore, readiness_of_freed con nodup whole ha,
      readiness_of_freed con nodup later freed]
    rw [List.length_append, List.length_singleton] at longer
    exact .left _ _ (by omega)

/-- The keys of an order come in the order in which they are ready. -/
theorem pairwise_order (con : g.Consistent) (isOrder : g.IsOrder order)
    (found : g.order = .ok order) : order.Pairwise (g.ReadyBefore order) := by
  have split : (g.roots ++ g.freedBy [] order).Pairwise (g.ReadyBefore order) := by
    refine List.pairwise_append.2 ⟨?_, pairwise_freedBy con isOrder.nodup rfl, ?_⟩
    · have places := (pairwise_idxOf g.nodes.nodup).filter fun k => (g.dependencies k).isEmpty
      refine places.imp_of_mem fun {a b} ha hb less => ?_
      rw [ReadyBefore, readiness_of_root order ha, readiness_of_root order hb]
      exact .right _ less
    · intro a ha b hb
      obtain ⟨before, key, after, whole, _, freed⟩ := mem_freedBy [] rfl hb
      rw [ReadyBefore, readiness_of_root order ha,
        readiness_of_freed con isOrder.nodup whole freed]
      exact .left _ _ (Nat.succ_pos _)
  rwa [← order_eq con found] at split

/-- In the order of a graph without loops that is built call by call, the key at every place is, of
all keys that are not out and that read only keys that are, the one that was ready first: the last
key that it reads came before that of any other, or it is the same and its edge to this one was put
in first. The keys that read nothing come before all others, in the order of the nodes. -/
theorem ties_go_to_the_key_that_was_ready_first (calls : List Call)
    (loopless : ∀ key, ¬ TransGen (built calls).Edge key key) :
    ∃ order, (built calls).order = .ok order ∧ order.Perm (built calls).keys ∧
      (∀ before key rest, order = before ++ key :: rest →
        (∀ d ∈ (built calls).dependencies key, d ∈ before) ∧
        ∀ k ∈ rest, (built calls).ReadyBefore order key k) ∧
      (built calls).roots <+: order := by
  have con := consistent_built calls
  obtain ⟨order, found, isOrder⟩ := order_spec con loopless
  refine ⟨order, found, isOrder.perm, fun before key rest whole => ?_, ?_⟩
  · have pairs := pairwise_order con isOrder found
    refine ⟨isOrder.ascends before key rest whole, fun k later => ?_⟩
    have here : (key :: rest).Pairwise ((built calls).ReadyBefore order) :=
      pairs.sublist (whole ▸ List.sublist_append_right _ _)
    exact List.rel_of_pairwise_cons here later
  · exact ⟨_, (order_eq con found).symm⟩

def late : List Call := [.ensure "A1", .ensure "B1", .ensure "C1", .addEdge "B1" "A1"]

theorem order_late : (built late).order = .ok ["B1", "C1", "A1"] := by rfl

theorem loopless_late : ∀ key, ¬ TransGen (built late).Edge key key := by
  by_contra loops
  obtain ⟨_, stopped⟩ := (order_eq_cycle_iff (consistent_built late)).2 loops
  cases order_late.symm.trans stopped

/-- A key that is ready from the start comes before one that is ready later. -/
theorem ties_go_to_the_key_that_was_ready_first_of_late :
    (∀ key, ¬ TransGen (built late).Edge key key) ∧
      ∃ order, (built late).order = .ok order ∧ order = ["B1"] ++ "C1" :: ["A1"] ∧
        (built late).ReadyBefore order "C1" "A1" ∧ ["B1", "C1"] <+: order := by
  obtain ⟨order, found, _, ready, first⟩ :=
    ties_go_to_the_key_that_was_ready_first late loopless_late
  cases order_late.symm.trans found
  exact ⟨loopless_late, _, order_late, rfl,
    (ready ["B1"] "C1" ["A1"] rfl).2 "A1" (List.mem_singleton_self _), first⟩

/-- The order of the nodes does not break ties: the first of them has nothing left to wait for, and the
last of them is next. -/
theorem later_node_comes_first_of_late :
    (∀ key, ¬ TransGen (built late).Edge key key) ∧ (built late).keys = ["A1", "B1", "C1"] ∧
      (built late).order = .ok (["B1"] ++ "C1" :: ["A1"]) ∧
      (∀ d ∈ (built late).dependencies "A1", d ∈ ["B1"]) ∧
      ¬ (built late).keys.idxOf "C1" ≤ (built late).keys.idxOf "A1" :=
  ⟨loopless_late, by decide, order_late, by decide, by decide⟩

end Worksheet.Graph
