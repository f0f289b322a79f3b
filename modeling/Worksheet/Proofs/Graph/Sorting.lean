-- The order of a graph. A key joins the queue when its count comes down to zero, and its count is
-- always the number of keys that it reads and that are not out. Where there are loops, the keys
-- that stay in are those on a loop and those that a loop leads to.
import Mathlib.Data.List.Nodup
import Mathlib.Order.WellFoundedSet
import Worksheet.Graph.Order
import Worksheet.Proofs.Graph.Edges

open Relation

namespace Worksheet.Graph

/-! ## Orders -/

/-- Every key of `order` comes after the keys that it reads. -/
def Ascends (g : Graph) (order : List String) : Prop :=
  ∀ before key rest, order = before ++ key :: rest → ∀ d ∈ g.dependencies key, d ∈ before

/-- All nodes, each once, and each after the keys that it reads. -/
structure IsOrder (g : Graph) (order : List String) : Prop where
  perm : order.Perm g.keys
  ascends : g.Ascends order

theorem IsOrder.nodup {g : Graph} {order : List String} (isOrder : g.IsOrder order) :
    order.Nodup := isOrder.perm.nodup_iff.2 g.nodes.nodup

theorem Ascends.snoc {g : Graph} {order : List String} (h : g.Ascends order) {key : String}
    (read : ∀ d ∈ g.dependencies key, d ∈ order) : g.Ascends (order ++ [key]) := by
  intro before k rest same d hd
  rcases List.eq_nil_or_concat rest with rfl | ⟨rest, last, rfl⟩
  · obtain ⟨rfl, hk⟩ := List.append_inj' same rfl
    cases hk
    exact read d hd
  · have same' : order ++ [key] = (before ++ k :: rest) ++ [last] := by simpa using same
    obtain ⟨rfl, _⟩ := List.append_inj' same' rfl
    exact h before k rest rfl d hd

/-- What holds of a key when it holds of all keys that it reads holds of every key that no loop
leads to. -/
theorem induction_off_loops {g : Graph} (con : g.Consistent) {P : String → Prop}
    (step : ∀ k ∈ g.keys, (∀ d ∈ g.dependencies k, P d) → P k) :
    ∀ k ∈ g.keys, ¬ g.Looped k → P k := by
  -- Where no loop leads to its end, a way has no loop on it either.
  have strict : IsStrictOrder String fun a b => TransGen g.Edge a b ∧ ¬ g.Looped b :=
    { irrefl := fun a way => way.2 ⟨a, way.1, .refl⟩
      trans := fun _ _ _ way more => ⟨way.1.trans more.1, more.2⟩ }
  have founded : {k | k ∈ g.keys}.WellFoundedOn fun a b => TransGen g.Edge a b ∧ ¬ g.Looped b :=
    (List.finite_toSet g.keys).wellFoundedOn
  intro k hk
  apply founded.induction hk
  intro key member ih off
  apply step key member
  intro d hd
  have edge := (con.mirror d key).2 hd
  exact ih d edge.source_mem ⟨.single edge, off⟩ fun looped => off (looped.tail edge)

theorem Acyclic.induction {g : Graph} (con : g.Consistent) (acyclic : g.Acyclic)
    {P : String → Prop} (step : ∀ k ∈ g.keys, (∀ d ∈ g.dependencies k, P d) → P k) :
    ∀ k ∈ g.keys, P k := fun k hk =>
  induction_off_loops con step k hk ((acyclic_iff g).1 acyclic k)

/-- Whatever leads to a key, directly or through others, stands before it. -/
theorem Ascends.mem_before {g : Graph} (con : g.Consistent) {order : List String}
    (ascends : g.Ascends order) {start key : String} (way : TransGen g.Edge start key)
    {before rest : List String} (whole : order = before ++ key :: rest) : start ∈ before := by
  induction way generalizing before rest with
  | single edge => exact ascends before _ rest whole start ((con.mirror _ _).1 edge)
  | tail way edge ih =>
    have member := ascends before _ rest whole _ ((con.mirror _ _).1 edge)
    obtain ⟨front, back, rfl⟩ := List.append_of_mem member
    exact List.mem_append_left _ (ih (by simpa using whole))

theorem Ascends.not_looped {g : Graph} (con : g.Consistent) {order : List String}
    (ascends : g.Ascends order) (nodup : order.Nodup) {key : String} (member : key ∈ order) :
    ¬ g.Looped key := by
  rintro ⟨c, loop, way⟩
  have inside : c ∈ order := by
    obtain ⟨before, rest, whole⟩ := List.append_of_mem member
    rcases reflTransGen_iff_eq_or_transGen.1 way with same | way
    · exact same ▸ member
    · exact whole ▸ List.mem_append_left _ (ascends.mem_before con way whole)
  obtain ⟨before, rest, whole⟩ := List.append_of_mem inside
  rw [whole] at nodup
  exact (List.nodup_append.1 nodup).2.2 c (ascends.mem_before con loop whole) c
    (List.mem_cons_self ..) rfl

/-! ## Counts -/

/-- How many of the keys that a key reads are not out. -/
def waits (g : Graph) (out : List String) (key : String) : Nat :=
  (g.dependencies key).countP (· ∉ out)

theorem waits_eq_zero_iff (g : Graph) (out : List String) (key : String) :
    g.waits out key = 0 ↔ ∀ d ∈ g.dependencies key, d ∈ out := by
  simp [waits, List.countP_eq_zero]

theorem countP_snoc {ds out : List String} (nodup : ds.Nodup) {key : String} (fresh : key ∉ out) :
    ds.countP (· ∉ out ++ [key]) + (if key ∈ ds then 1 else 0) = ds.countP (· ∉ out) := by
  have parts : ds.countP (· ∉ out) = ds.countP (· ∉ out ++ [key]) + ds.count key := by
    clear nodup
    induction ds with
    | nil => rfl
    | cons d ds ih =>
      rw [List.countP_cons, List.countP_cons, List.count_cons, ih]
      by_cases same : d = key
      · subst same
        simp [fresh]
        omega
      · by_cases gone : d ∈ out <;> simp [same, gone]
        omega
  rw [parts, nodup.count]

theorem waits_snoc {g : Graph} (con : g.Consistent) {out : List String} {key : String}
    (fresh : key ∉ out) (k : String) :
    g.waits (out ++ [key]) k + (if k ∈ g.dependents key then 1 else 0) = g.waits out k := by
  have same : (k ∈ g.dependents key) = (key ∈ g.dependencies k) := propext (con.mirror key k)
  simp only [same]
  exact countP_snoc (con.dependencies_nodup k) fresh

/-- Each key of the list waits for one less, and those that waited for one are ready. -/
theorem releaseAll_spec {keys : List String} (nodup : keys.Nodup) {counts : Counts}
    {count : String → Int} (known : ∀ k ∈ keys, counts.get? k = some (count k)) :
    ∃ counts', releaseAll keys counts = .ok (counts', keys.filter (count · = 1)) ∧
      ∀ k, counts'.get? k = if k ∈ keys then some (count k - 1) else counts.get? k := by
  induction keys generalizing counts with
  | nil => exact ⟨counts, rfl, by simp⟩
  | cons key rest ih =>
    rw [List.nodup_cons] at nodup
    have first := known key (List.mem_cons_self ..)
    have known' : ∀ k ∈ rest, (counts.put key (count key - 1)).get? k = some (count k) := by
      intro k hk
      have other : k ≠ key := fun same => nodup.1 (same ▸ hk)
      rw [Roster.get?_put_of_ne _ other]
      exact known k (List.mem_cons_of_mem _ hk)
    obtain ⟨counts', done, result⟩ := ih nodup.2 known'
    refine ⟨counts', ?_, ?_⟩
    · simp only [releaseAll, release, first, bind, Except.bind, done, List.filter_cons,
        decide_eq_true_eq]
      by_cases one : count key = 1
      · simp [one]
      · have left : count key - 1 ≠ 0 := by omega
        simp [one, left]
    · intro k
      rw [result]
      by_cases same : k = key
      · subst same
        simp [nodup.1, Roster.get?_put_self]
      · simp [same, Roster.get?_put_of_ne]

/-! ## The queue -/

/-- What every turn keeps. `out` is what was taken off the queue before. -/
structure Draining (g : Graph) (out queue : List String) (counts : Counts) : Prop where
  nodup : (out ++ queue).Nodup
  nodes : ∀ k ∈ out ++ queue, k ∈ g.keys
  counts : ∀ k ∈ g.keys, counts.get? k = some (g.waits out k : Int)
  ready : ∀ k ∈ g.keys, k ∈ out ++ queue ↔ g.waits out k = 0
  ascends : g.Ascends out

theorem Draining.turn {g : Graph} (con : g.Consistent) {key : String} {out queue : List String}
    {counts : Counts} (inv : g.Draining out (key :: queue) counts) :
    ∃ counts' ready, releaseAll (g.dependents key) counts = .ok (counts', ready) ∧
      g.Draining (out ++ [key]) (queue ++ ready) counts' := by
  have node : key ∈ g.keys := inv.nodes key (by simp)
  have fresh : key ∉ out := fun h => (List.nodup_append.1 inv.nodup).2.2 key h key (by simp) rfl
  have waited := waits_snoc con fresh
  have known : ∀ k ∈ g.dependents key, counts.get? k = some (g.waits out k : Int) :=
    fun k hk => inv.counts k (Edge.target_mem con hk)
  obtain ⟨counts', released, result⟩ := releaseAll_spec (con.dependents_nodup key) known
  refine ⟨counts', _, released, ?_, ?_, ?_, ?_, ?_⟩
  · rw [List.append_assoc, List.singleton_append, ← List.cons_append, ← List.append_assoc,
      List.nodup_append]
    refine ⟨inv.nodup, (con.dependents_nodup key).filter _, ?_⟩
    rintro a ha b hb rfl
    have none := (inv.ready a (inv.nodes a ha)).1 ha
    simp [none] at hb
  · intro k hk
    rw [List.append_assoc, List.singleton_append, ← List.cons_append, ← List.append_assoc,
      List.mem_append] at hk
    rcases hk with old | new
    · exact inv.nodes k old
    · exact Edge.target_mem con (List.mem_of_mem_filter new)
  · intro k hk
    rw [result, inv.counts k hk, ← waited k]
    split <;> simp
  · intro k hk
    rw [List.append_assoc, List.singleton_append, ← List.cons_append, ← List.append_assoc,
      List.mem_append, inv.ready k hk, List.mem_filter, ← waited k]
    by_cases reads : k ∈ g.dependents key
    · simp [reads]
    · simp [reads]
  · exact inv.ascends.snoc ((g.waits_eq_zero_iff out key).1 ((inv.ready key node).1 (by simp)))

/-- The turns do not run out before the queue is empty. -/
theorem drain_spec {g : Graph} (con : g.Consistent) {turns : Nat} {out queue : List String}
    {counts : Counts} (inv : g.Draining out queue counts) (room : g.size ≤ out.length + turns) :
    ∃ rest counts', g.drain turns queue counts = .ok (rest, counts') ∧
      g.Draining (out ++ rest) [] counts' := by
  induction turns generalizing out queue counts with
  | zero =>
    cases queue with
    | nil => exact ⟨[], counts, rfl, by simpa using inv⟩
    | cons key queue =>
      have few := inv.nodup.length_le_of_subset inv.nodes
      rw [length_keys, List.length_append, List.length_cons] at few
      omega
  | succ turns ih =>
    cases queue with
    | nil => exact ⟨[], counts, rfl, by simpa using inv⟩
    | cons key queue =>
      obtain ⟨counts₁, ready, released, inv₁⟩ := inv.turn con
      have room₁ : g.size ≤ (out ++ [key]).length + turns := by
        rw [List.length_append, List.length_singleton]
        omega
      obtain ⟨rest, counts', drained, inv'⟩ := ih inv₁ room₁
      refine ⟨key :: rest, counts', ?_, by simpa using inv'⟩
      simp only [drain, released, bind, Except.bind, drained]

theorem get?_waiting {g : Graph} {key : String} (h : key ∈ g.keys) :
    g.waiting.get? key = some ((g.dependencies key).length : Int) := by
  obtain ⟨links, found, _, hd⟩ := exists_links h
  have nodup : (Entries.keys (g.nodes.entries.map
      fun e => (e.1, (e.2.dependencies.length : Int)))).Nodup := by
    simpa [Entries.keys, Function.comp_def] using g.nodes.nodup
  have member : (key, (links.dependencies.length : Int)) ∈
      g.nodes.entries.map fun e => (e.1, (e.2.dependencies.length : Int)) :=
    List.mem_map.2 ⟨(key, links), Roster.mem_of_get? found, rfl⟩
  rw [waiting, Roster.get?_ofEntries nodup, ← hd]
  exact Entries.get?_of_mem nodup member

theorem draining_start (g : Graph) :
    g.Draining [] (countedBy (· == 0) g g.waiting) g.waiting := by
  have counts : ∀ k ∈ g.keys, g.waiting.get? k = some (g.waits [] k : Int) := by
    intro k hk
    rw [get?_waiting hk]
    simp [waits]
  refine ⟨?_, ?_, counts, ?_, ?_⟩
  · exact g.nodes.nodup.filter _
  · exact fun k hk => List.mem_of_mem_filter hk
  · intro k hk
    simp [countedBy, List.mem_filter, hk, counts k hk]
  · intro before key rest same
    simp at same

/-- What is left over waits for a key that is left over, so a loop leads to it; and where one does, a
key never gets out. -/
theorem Draining.mem_out_iff {g : Graph} (con : g.Consistent) {out : List String}
    {counts : Counts} (inv : g.Draining out [] counts) {key : String} (node : key ∈ g.keys) :
    key ∈ out ↔ ¬ g.Looped key := by
  have nodup : out.Nodup := by simpa using inv.nodup
  have step : ∀ k ∈ g.keys, (∀ d ∈ g.dependencies k, d ∈ out) → k ∈ out := by
    intro k hk ih
    have ready := (inv.ready k hk).2 ((g.waits_eq_zero_iff out k).2 ih)
    simpa using ready
  exact ⟨inv.ascends.not_looped con nodup, induction_off_loops con step key node⟩

theorem Draining.complete {g : Graph} (con : g.Consistent) (acyclic : g.Acyclic)
    {out : List String} {counts : Counts} (inv : g.Draining out [] counts) : g.IsOrder out := by
  have nodup : out.Nodup := by simpa using inv.nodup
  have nodes : ∀ k ∈ out, k ∈ g.keys := by simpa using inv.nodes
  have all : ∀ k ∈ g.keys, k ∈ out :=
    fun k hk => (inv.mem_out_iff con hk).2 ((acyclic_iff g).1 acyclic k)
  exact ⟨(List.perm_ext_iff_of_nodup nodup g.nodes.nodup).2 fun k => ⟨nodes k, all k⟩, inv.ascends⟩

/-- The keys that still wait are those that a loop leads to. -/
theorem Draining.mem_stuck_iff {g : Graph} (con : g.Consistent) {out : List String}
    {counts : Counts} (inv : g.Draining out [] counts) (key : String) :
    key ∈ countedBy (fun n => 0 < n) g counts ↔ g.Looped key := by
  have waits : key ∈ g.keys → (key ∈ countedBy (fun n => 0 < n) g counts ↔ key ∉ out) := by
    intro node
    have ready := inv.ready key node
    rw [List.append_nil] at ready
    simp [countedBy, node, inv.counts key node, ready, Nat.pos_iff_ne_zero]
  constructor
  · intro stuck
    have node := List.mem_of_mem_filter stuck
    by_contra off
    exact (waits node).1 stuck ((inv.mem_out_iff con node).2 off)
  · intro looped
    have node := looped.mem con
    exact (waits node).2 fun out => (inv.mem_out_iff con node).1 out looped

/-! ## What is found -/

theorem IsOrder.acyclic {g : Graph} (con : g.Consistent) {order : List String}
    (isOrder : g.IsOrder order) : g.Acyclic := by
  intro key loop
  obtain ⟨next, first, _⟩ := TransGen.head'_iff.1 loop
  have member := isOrder.perm.mem_iff.2 first.source_mem
  exact isOrder.ascends.not_looped con isOrder.nodup member ⟨key, loop, .refl⟩

/-- Either an order is found; or there is a loop, and the fault names the keys that are left, in the
order of the nodes: those that a loop leads to. -/
theorem order_cases {g : Graph} (con : g.Consistent) :
    (∃ order, g.order = .ok order ∧ g.IsOrder order) ∨
      ∃ stuck, g.order = .error (.cycle stuck) ∧ ¬ g.Acyclic ∧ stuck.Sublist g.keys ∧
        ∀ key, key ∈ stuck ↔ g.Looped key := by
  have room : g.size ≤ ([] : List String).length + g.size := by simp
  obtain ⟨order, counts, drained, inv⟩ := drain_spec con g.draining_start room
  rw [List.nil_append] at inv
  simp only [Graph.order, drained, bind, Except.bind]
  split
  · rename_i whole
    have nodup : order.Nodup := by simpa using inv.nodup
    have nodes : order ⊆ g.keys := fun k hk => inv.nodes k (by simpa using hk)
    have perm := (List.subperm_of_subset nodup nodes).perm_of_length_le
      (by rw [length_keys, whole])
    exact Or.inl ⟨order, rfl, perm, inv.ascends⟩
  · rename_i short
    have loops : ¬ g.Acyclic := fun acyclic =>
      short ((inv.complete con acyclic).perm.length_eq.trans g.length_keys)
    exact Or.inr ⟨_, rfl, loops, List.filter_sublist, inv.mem_stuck_iff con⟩

theorem order_spec {g : Graph} (con : g.Consistent) (acyclic : g.Acyclic) :
    ∃ order, g.order = .ok order ∧ g.IsOrder order :=
  (order_cases con).resolve_right fun ⟨_, _, loops, _⟩ => loops acyclic

theorem order_eq_cycle_iff {g : Graph} (con : g.Consistent) :
    (∃ stuck, g.order = .error (.cycle stuck)) ↔ ¬ g.Acyclic := by
  rcases order_cases con with ⟨order, found, isOrder⟩ | ⟨stuck, stopped, loops, _⟩
  · rw [found]
    exact iff_of_false nofun (not_not.2 (isOrder.acyclic con))
  · exact iff_of_true ⟨stuck, stopped⟩ loops

theorem IsOrder.idxOf_lt {g : Graph} (con : g.Consistent) {order : List String}
    (isOrder : g.IsOrder order) {source target : String} (edge : g.Edge source target) :
    order.idxOf source < order.idxOf target := by
  obtain ⟨before, rest, whole⟩ := List.append_of_mem (isOrder.perm.mem_iff.2 (edge.target_mem con))
  have first : source ∈ before := isOrder.ascends.mem_before con (.single edge) whole
  have later : target ∉ before := by
    have nodup := isOrder.nodup
    rw [whole] at nodup
    exact fun twice => (List.nodup_append.1 nodup).2.2 target twice target (List.mem_cons_self ..) rfl
  rw [whole, List.idxOf_append_of_mem first, List.idxOf_append_of_notMem later]
  exact Nat.lt_add_right _ (List.idxOf_lt_length_of_mem first)

/-- Of every graph that is built call by call, with loops or without, either an order is found or the
keys that have none are named, and never anything else. There are such keys just where there is a
loop. An order has every node once, and the source of each edge before its target; the keys that
are named are those on a loop and those that one leads to, in the order of the nodes. -/
theorem order_is_found_or_loops_are_named (calls : List Call) :
    ((∃ order, (built calls).order = .ok order ∧ order.Perm (built calls).keys ∧ order.Nodup ∧
        ∀ source target, (built calls).Edge source target →
          order.idxOf source < order.idxOf target) ∨
      ∃ stuck, (built calls).order = .error (.cycle stuck) ∧ stuck.Sublist (built calls).keys ∧
        ∀ key, key ∈ stuck ↔
          ∃ c, TransGen (built calls).Edge c c ∧ ReflTransGen (built calls).Edge c key) ∧
    ((∃ stuck, (built calls).order = .error (.cycle stuck)) ↔
      ∃ key, TransGen (built calls).Edge key key) := by
  have con := consistent_built calls
  constructor
  · rcases order_cases con with ⟨order, found, isOrder⟩ | ⟨stuck, named, _, listed⟩
    · exact Or.inl ⟨order, found, isOrder.perm, isOrder.nodup, fun s t => isOrder.idxOf_lt con⟩
    · exact Or.inr ⟨stuck, named, listed⟩
  · rw [order_eq_cycle_iff con, Acyclic, not_forall_not]

/-- Two keys that read each other, one that reads the second of them, and two apart from these. The
last call but one closes the loop, and the last one fails: its source is no node. -/
def knotted : List Call :=
  [.ensure "A1", .ensure "B1", .ensure "C1", .ensure "D1", .ensure "E1", .addEdge "E1" "A1",
    .addEdge "C1" "D1", .addEdge "B1" "C1", .addEdge "C1" "B1", .addEdge "F1" "A1"]

/-- A loop leads to a key that is not on it; before the loop is closed there is an order. -/
theorem order_is_found_or_loops_are_named_of_knotted :
    (built knotted).order = .error (.cycle ["B1", "C1", "D1"]) ∧
      (∃ c, TransGen (built knotted).Edge c c ∧ ReflTransGen (built knotted).Edge c "D1") ∧
      ∃ order, (built (knotted.take 8)).order = .ok order ∧
        (built (knotted.take 8)).Edge "B1" "C1" ∧ order.idxOf "B1" < order.idxOf "C1" := by
  have stopped : (built knotted).order = .error (.cycle ["B1", "C1", "D1"]) := by rfl
  have sorted : (built (knotted.take 8)).order = .ok ["B1", "E1", "C1", "A1", "D1"] := by rfl
  have edge : "C1" ∈ (built (knotted.take 8)).dependents "B1" := by decide
  refine ⟨stopped, ?_, _, sorted, edge, ?_⟩
  · rcases (order_is_found_or_loops_are_named knotted).1 with ⟨_, found, _⟩ | ⟨_, named, _, listed⟩
    · cases stopped.symm.trans found
    · cases stopped.symm.trans named
      exact (listed "D1").1 (by decide)
  · rcases (order_is_found_or_loops_are_named (knotted.take 8)).1 with
      ⟨_, found, _, _, before⟩ | ⟨_, named, _⟩
    · cases sorted.symm.trans found
      exact before "B1" "C1" edge
    · cases sorted.symm.trans named

end Worksheet.Graph
