-- The search for a path, and with it the test for loops. Where the search finds no path there is
-- none: what was seen is then closed under edges. Every path on the stack ends in a key of its own,
-- so the turns do not run out.
import Mathlib.Data.List.Chain
import Worksheet.Graph.Path
import Worksheet.Proofs.Graph.Edges

open Relation

namespace Worksheet.Graph

/-! ## Paths -/

/-- A path along edges from `start` to `goal` that takes no key twice. -/
structure IsPath (g : Graph) (start goal : String) (path : List String) : Prop where
  chain : path.IsChain g.Edge
  head : path.head? = some start
  last : path.getLast? = some goal
  nodup : path.Nodup

theorem isPath_singleton (g : Graph) (key : String) : g.IsPath key key [key] :=
  ⟨.singleton key, rfl, rfl, List.nodup_singleton key⟩

theorem IsPath.snoc {g : Graph} {start key next : String} {path : List String}
    (h : g.IsPath start key path) (edge : g.Edge key next) (fresh : next ∉ path) :
    g.IsPath start next (path ++ [next]) := by
  refine ⟨?_, ?_, by simp, ?_⟩
  · rw [List.isChain_append]
    refine ⟨h.chain, .singleton next, ?_⟩
    intro x hx y hy
    rw [h.last, Option.mem_some_iff] at hx
    simp only [List.head?_cons, Option.mem_some_iff] at hy
    exact hx ▸ hy ▸ edge
  · rw [List.head?_append, h.head]
    rfl
  · rw [← List.concat_eq_append]
    exact h.nodup.concat fresh

theorem IsPath.mono {g h : Graph} (edges : ∀ s t, g.Edge s t → h.Edge s t) {start goal : String}
    {path : List String} (p : g.IsPath start goal path) : h.IsPath start goal path :=
  ⟨p.chain.imp edges, p.head, p.last, p.nodup⟩

theorem reaches_of_isChain {g : Graph} {start goal : String} {path : List String}
    (chain : (start :: path).IsChain g.Edge) (last : (start :: path).getLast? = some goal) :
    ∀ k ∈ start :: path, g.Reaches start k ∧ g.Reaches k goal := by
  induction path generalizing start with
  | nil =>
    intro k hk
    cases last
    rw [List.mem_singleton.1 hk]
    exact ⟨.refl, .refl⟩
  | cons next rest ih =>
    rw [List.isChain_cons_cons] at chain
    rw [List.getLast?_cons_cons] at last
    have later := ih chain.2 last
    intro k hk
    rcases List.mem_cons.1 hk with rfl | hk
    · exact ⟨.refl, .head chain.1 (later next (List.mem_cons_self ..)).2⟩
    · exact ⟨.head chain.1 (later k hk).1, (later k hk).2⟩

theorem IsPath.via {g : Graph} {start goal : String} {path : List String}
    (h : g.IsPath start goal path) : ∀ k ∈ path, g.Reaches start k ∧ g.Reaches k goal := by
  obtain ⟨chain, head, last, _⟩ := h
  cases path with
  | nil => cases head
  | cons first rest =>
    cases head
    exact reaches_of_isChain chain last

/-- Every key of a path but its start comes after a key that has an edge to it. -/
theorem IsPath.exists_edge {g : Graph} {start goal : String} {path : List String}
    (h : g.IsPath start goal path) {key : String} (member : key ∈ path) (other : key ≠ start) :
    ∃ before ∈ path, g.Edge before key := by
  obtain ⟨front, rest, rfl⟩ := List.append_of_mem member
  rcases List.eq_nil_or_concat front with rfl | ⟨front, before, rfl⟩
  · have first := h.head
    simp only [List.nil_append, List.head?_cons, Option.some.injEq] at first
    exact absurd first other
  · refine ⟨before, by simp, ?_⟩
    have chain := h.chain
    rw [List.concat_append, List.isChain_append] at chain
    exact (List.isChain_cons_cons.1 chain.2.1).1

theorem IsPath.start_mem {g : Graph} {start goal : String} {path : List String}
    (h : g.IsPath start goal path) : start ∈ path := List.mem_of_head? h.head

theorem IsPath.goal_mem {g : Graph} {start goal : String} {path : List String}
    (h : g.IsPath start goal path) : goal ∈ path := List.mem_of_getLast? h.last

theorem IsPath.reaches {g : Graph} {start goal : String} {path : List String}
    (h : g.IsPath start goal path) : g.Reaches start goal := (h.via start h.start_mem).2

/-! ## One look -/

/-- A look that does not come upon the goal keeps every key that it has not seen before, and takes
no other. -/
theorem look_beyond {goal : String} {path keys : List String} {f f' : Frontier}
    (h : look goal path keys f = .beyond f') :
    ∃ fresh : List String, f'.visited = fresh ++ f.visited ∧
      f'.stack = fresh.map (· :: path) ++ f.stack ∧ fresh.Nodup ∧
      (∀ k ∈ fresh, k ∈ keys ∧ k ∉ f.visited ∧ k ≠ goal) ∧
      ∀ k ∈ keys, k ∈ fresh ++ f.visited := by
  induction keys generalizing f with
  | nil =>
    cases h
    exact ⟨[], rfl, rfl, List.nodup_nil, by simp, by simp⟩
  | cons key rest ih =>
    unfold look at h
    split at h
    · rename_i seen
      have seen : key ∈ f.visited := by simpa using seen
      obtain ⟨fresh, hv, hs, nodup, new, all⟩ := ih h
      refine ⟨fresh, hv, hs, nodup, ?_, ?_⟩
      · intro k hk
        exact ⟨List.mem_cons_of_mem _ (new k hk).1, (new k hk).2⟩
      · intro k hk
        rcases List.mem_cons.1 hk with rfl | later
        · exact List.mem_append_right _ seen
        · exact all k later
    · rename_i unseen
      have unseen : key ∉ f.visited := by simpa using unseen
      split at h
      · cases h
      · rename_i other
        obtain ⟨fresh, hv, hs, nodup, new, all⟩ := ih h
        have apart : key ∉ fresh := fun h => (new key h).2.1 (List.mem_cons_self ..)
        refine ⟨fresh ++ [key], by simp [hv], by simp [hs], ?_, ?_, ?_⟩
        · rw [← List.concat_eq_append]
          exact nodup.concat apart
        · intro k hk
          rcases List.mem_append.1 hk with hk | hk
          · obtain ⟨member, old, ne⟩ := new k hk
            exact ⟨List.mem_cons_of_mem _ member, fun h => old (List.mem_cons_of_mem _ h), ne⟩
          · rw [List.mem_singleton] at hk
            subst hk
            exact ⟨List.mem_cons_self .., unseen, other⟩
        · intro k hk
          rcases List.mem_cons.1 hk with rfl | later
          · simp
          · simpa [or_assoc, or_comm, or_left_comm] using all k later

theorem look_goal {goal : String} {path keys found : List String} {f : Frontier}
    (h : look goal path keys f = .goal found) : goal ∈ keys ∧ found = goal :: path := by
  induction keys generalizing f with
  | nil => cases h
  | cons key rest ih =>
    unfold look at h
    split at h
    · exact ⟨List.mem_cons_of_mem _ (ih h).1, (ih h).2⟩
    · split at h
      · rename_i same
        cases h
        exact ⟨same ▸ List.mem_cons_self .., by rw [same]⟩
      · exact ⟨List.mem_cons_of_mem _ (ih h).1, (ih h).2⟩

/-! ## The search -/

/-- What every turn keeps: paths on the stack are paths, and a key that was seen is the end of one
of them or has had all its edges looked at. -/
structure Searching (g : Graph) (start goal : String) (f : Frontier) : Prop where
  paths : ∀ p ∈ f.stack, ∃ key rest, p = key :: rest ∧ g.IsPath start key p.reverse ∧
    ∀ k ∈ p, k ∈ f.visited
  nodup : f.visited.Nodup
  nodes : ∀ k ∈ f.visited, k ∈ g.keys
  start_seen : start ∈ f.visited
  goal_unseen : goal ∉ f.visited
  closed : ∀ k ∈ f.visited, (∃ rest, k :: rest ∈ f.stack) ∨ ∀ t, g.Edge k t → t ∈ f.visited

theorem searching_start {g : Graph} {start goal : String} (node : start ∈ g.keys)
    (apart : start ≠ goal) : g.Searching start goal ⟨[start], [[start]]⟩ := by
  refine ⟨?_, List.nodup_singleton _, ?_, List.mem_singleton.2 rfl, ?_, ?_⟩
  · intro p hp
    rw [List.mem_singleton] at hp
    subst hp
    exact ⟨start, [], rfl, g.isPath_singleton start, fun k hk => hk⟩
  · intro k hk
    exact List.mem_singleton.1 hk ▸ node
  · intro h
    exact apart (List.mem_singleton.1 h).symm
  · intro k hk
    rw [List.mem_singleton] at hk
    exact Or.inl ⟨[], by simp [hk]⟩

theorem Searching.beyond {g : Graph} (con : g.Consistent) {start goal key : String}
    {path visited : List String} {stack : List (List String)} {f : Frontier}
    (inv : g.Searching start goal ⟨visited, (key :: path) :: stack⟩)
    (looked : look goal (key :: path) (g.dependents key) ⟨visited, stack⟩ = .beyond f) :
    g.Searching start goal f := by
  obtain ⟨fresh, hv, hs, nodup, new, all⟩ := look_beyond looked
  simp only at hv hs new all
  have old : ∀ k ∈ visited, k ∈ f.visited := fun k hk => hv ▸ List.mem_append_right _ hk
  obtain ⟨_, _, same, isPath, seen⟩ := inv.paths _ (List.mem_cons_self ..)
  cases same
  -- In every part of the invariant what the look has found comes first, and then what was there.
  refine ⟨?_, ?_, ?_, old _ inv.start_seen, ?_, ?_⟩
  · intro p hp
    rw [hs, List.mem_append] at hp
    rcases hp with hp | hp
    · obtain ⟨k, hk, rfl⟩ := List.mem_map.1 hp
      refine ⟨k, key :: path, rfl, ?_, ?_⟩
      · rw [List.reverse_cons]
        refine isPath.snoc (new k hk).1 fun on => (new k hk).2.1 (seen k ?_)
        exact List.mem_reverse.1 on
      · intro x hx
        rcases List.mem_cons.1 hx with rfl | hx
        · exact hv ▸ List.mem_append_left _ hk
        · exact old x (seen x hx)
    · obtain ⟨k, rest, hk, hp', seen'⟩ := inv.paths p (List.mem_cons_of_mem _ hp)
      exact ⟨k, rest, hk, hp', fun x hx => old x (seen' x hx)⟩
  · rw [hv, List.nodup_append]
    refine ⟨nodup, inv.nodup, ?_⟩
    rintro a ha b hb rfl
    exact (new a ha).2.1 hb
  · intro k hk
    rw [hv, List.mem_append] at hk
    rcases hk with hk | hk
    · exact Edge.target_mem con (new k hk).1
    · exact inv.nodes k hk
  · intro h
    rw [hv, List.mem_append] at h
    rcases h with h | h
    · exact (new goal h).2.2 rfl
    · exact inv.goal_unseen h
  · intro k hk
    rw [hv, List.mem_append] at hk
    rcases hk with hk | hk
    · exact Or.inl ⟨key :: path, hs ▸ List.mem_append_left _ (List.mem_map.2 ⟨k, hk, rfl⟩)⟩
    · rcases inv.closed k hk with ⟨rest, hr⟩ | done
      · rcases List.mem_cons.1 hr with top | below
        · cases top
          exact Or.inr fun t ht => hv ▸ all t ht
        · exact Or.inl ⟨rest, hs ▸ List.mem_append_right _ below⟩
      · exact Or.inr fun t ht => old t (done t ht)

theorem room_beyond {goal : String} {path keys : List String} {f f' : Frontier} {size turns : Nat}
    (looked : look goal path keys f = .beyond f')
    (room : size + 1 + (f.stack.length + 1) ≤ f.visited.length + (turns + 1)) :
    size + 1 + f'.stack.length ≤ f'.visited.length + turns := by
  obtain ⟨fresh, hv, hs, _⟩ := look_beyond looked
  rw [hv, hs]
  simp only [List.length_append, List.length_map]
  omega

/-- There is room for a turn as long as there is a path on the stack. -/
theorem Searching.room {g : Graph} {start goal : String} {f : Frontier}
    (inv : g.Searching start goal f) {turns : Nat}
    (room : g.size + 1 + f.stack.length ≤ f.visited.length + turns) : turns ≠ 0 := by
  have few := inv.nodup.length_le_of_subset inv.nodes
  rw [length_keys] at few
  omega

theorem Searching.out_of_reach {g : Graph} {start goal : String} {visited : List String}
    (inv : g.Searching start goal ⟨visited, []⟩) : ¬ g.Reaches start goal := by
  have seen : ∀ k, g.Reaches start k → k ∈ visited := by
    intro k way
    induction way with
    | refl => exact inv.start_seen
    | tail _ edge ih =>
      rcases inv.closed _ ih with ⟨_, h⟩ | done
      · cases h
      · exact done _ edge
  exact fun way => inv.goal_unseen (seen goal way)

/-- The search ends with a path, or with the goal out of reach. -/
theorem search_spec {g : Graph} (con : g.Consistent) {start goal : String} {turns : Nat}
    {f : Frontier} (inv : g.Searching start goal f)
    (room : g.size + 1 + f.stack.length ≤ f.visited.length + turns) :
    (∃ path, g.search goal turns f = .ok (some path) ∧ g.IsPath start goal path) ∨
      (g.search goal turns f = .ok none ∧ ¬ g.Reaches start goal) := by
  induction turns generalizing f with
  | zero => exact absurd rfl (inv.room room)
  | succ turns ih =>
    obtain ⟨visited, stack⟩ := f
    cases stack with
    | nil => exact Or.inr ⟨by simp [search], inv.out_of_reach⟩
    | cons top stack =>
      obtain ⟨key, path, rfl, isPath, seen⟩ := inv.paths _ (List.mem_cons_self ..)
      have node : key ∈ g.keys := inv.nodes key (seen key (List.mem_cons_self ..))
      obtain ⟨links, found, hd, _⟩ := exists_links node
      simp only [search, found, hd]
      rcases looked : look goal (key :: path) (g.dependents key) ⟨visited, stack⟩ with p | f
      · obtain ⟨edge, rfl⟩ := look_goal looked
        refine Or.inl ⟨_, rfl, ?_⟩
        rw [List.reverse_cons]
        exact isPath.snoc edge fun on => inv.goal_unseen (seen goal (List.mem_reverse.1 on))
      · exact ih (inv.beyond con looked) (room_beyond looked room)

/-- Turns of the search, as many as it takes until the goal is found or the stack is empty, and what
comes of them. -/
inductive EndsIn (g : Graph) (goal : String) : Frontier → Option (List String) → Prop
  | exhausted (visited : List String) : EndsIn g goal ⟨visited, []⟩ none
  | found {visited path found : List String} {key : String} {stack : List (List String)}
    (looked : look goal (key :: path) (g.dependents key) ⟨visited, stack⟩ = .goal found) :
    EndsIn g goal ⟨visited, (key :: path) :: stack⟩ (some found.reverse)
  | turn {visited path : List String} {key : String} {stack : List (List String)} {f : Frontier}
    {result : Option (List String)}
    (looked : look goal (key :: path) (g.dependents key) ⟨visited, stack⟩ = .beyond f)
    (later : EndsIn g goal f result) : EndsIn g goal ⟨visited, (key :: path) :: stack⟩ result

theorem Searching.endsIn {g : Graph} (con : g.Consistent) {start goal : String} {turns : Nat}
    {f : Frontier} (inv : g.Searching start goal f)
    (room : g.size + 1 + f.stack.length ≤ f.visited.length + turns)
    {result : Option (List String)} (ran : g.search goal turns f = .ok result) :
    g.EndsIn goal f result := by
  induction turns generalizing f with
  | zero => exact absurd rfl (inv.room room)
  | succ turns ih =>
    obtain ⟨visited, stack⟩ := f
    cases stack with
    | nil =>
      simp only [search, Except.ok.injEq] at ran
      subst ran
      exact .exhausted visited
    | cons top stack =>
      obtain ⟨key, path, rfl, isPath, seen⟩ := inv.paths _ (List.mem_cons_self ..)
      have node : key ∈ g.keys := inv.nodes key (seen key (List.mem_cons_self ..))
      obtain ⟨links, here, hd, _⟩ := exists_links node
      simp only [search, here, hd] at ran
      rcases looked : look goal (key :: path) (g.dependents key) ⟨visited, stack⟩ with p | f <;>
        rw [looked] at ran
      · simp only [Except.ok.injEq] at ran
        subst ran
        exact .found looked
      · exact .turn looked (ih (inv.beyond con looked) (room_beyond looked room) ran)

theorem findPath_spec {g : Graph} (con : g.Consistent) (start goal : String) :
    (∃ path, g.findPath start goal = .ok (some path) ∧ g.IsPath start goal path) ∨
      (g.findPath start goal = .ok none ∧
        ¬ (start ∈ g.keys ∧ goal ∈ g.keys ∧ g.Reaches start goal)) := by
  unfold findPath
  by_cases nodes : start ∈ g.keys ∧ goal ∈ g.keys
  · have hs := (g.mem_keys_iff start).1 nodes.1
    have hg := (g.mem_keys_iff goal).1 nodes.2
    simp only [hs, hg, Bool.not_true, Bool.or_self, Bool.false_eq_true, if_false]
    split
    · rename_i same
      exact Or.inl ⟨_, rfl, same ▸ g.isPath_singleton start⟩
    · rename_i apart
      have room : g.size + 1 + 1 ≤ 1 + (g.size + 1) := by omega
      rcases search_spec con (searching_start nodes.1 apart) room with found | ⟨none, out⟩
      · exact Or.inl found
      · exact Or.inr ⟨none, fun h => out h.2.2⟩
  · refine Or.inr ⟨if_pos ?_, fun h => nodes ⟨h.1, h.2.1⟩⟩
    by_contra both
    simp only [Bool.or_eq_true, Bool.not_eq_eq_eq_not, Bool.not_true, not_or,
      Bool.not_eq_false] at both
    exact nodes ⟨(g.mem_keys_iff start).2 both.1, (g.mem_keys_iff goal).2 both.2⟩

/-- A path is found only between nodes, and between two of them by a search that comes to its end. -/
theorem findPath_endsIn {g : Graph} (con : g.Consistent) {start goal : String}
    {result : Option (List String)} (ran : g.findPath start goal = .ok result) :
    (result.isSome → start ∈ g.keys ∧ goal ∈ g.keys) ∧
      (start ∈ g.keys → goal ∈ g.keys → start ≠ goal →
        g.EndsIn goal ⟨[start], [[start]]⟩ result) := by
  unfold findPath at ran
  split at ran
  · rename_i missing
    simp only [Except.ok.injEq] at ran
    subst ran
    refine ⟨nofun, fun hs hg => ?_⟩
    simp [(g.mem_keys_iff start).1 hs, (g.mem_keys_iff goal).1 hg] at missing
  · rename_i nodes
    simp only [Bool.or_eq_true, Bool.not_eq_eq_eq_not, Bool.not_true, not_or,
      Bool.not_eq_false, ← mem_keys_iff] at nodes
    refine ⟨fun _ => nodes, fun hs _ apart => ?_⟩
    rw [if_neg apart] at ran
    have room : g.size + 1 + 1 ≤ 1 + (g.size + 1) := by omega
    exact (searching_start hs apart).endsIn con room ran

theorem Reaches.nodes {g : Graph} (con : g.Consistent) {start goal : String}
    (way : g.Reaches start goal) (apart : start ≠ goal) : start ∈ g.keys ∧ goal ∈ g.keys := by
  rcases ReflTransGen.cases_head_iff.1 way with same | ⟨next, first, _⟩
  · exact absurd same apart
  rcases ReflTransGen.cases_tail_iff _ _ _ |>.1 way with same | ⟨before, _, last⟩
  · exact absurd same.symm apart
  exact ⟨first.source_mem, last.target_mem con⟩

/-- The path that an edge would close to a loop is found where there is one. -/
theorem cyclePath_spec {g : Graph} (con : g.Consistent) (source target : String) :
    (∃ path, g.cyclePath source target = .ok (some path) ∧ g.IsPath target source path) ∨
      (g.cyclePath source target = .ok none ∧ ¬ g.Reaches target source) := by
  unfold cyclePath
  split
  · rename_i same
    exact Or.inl ⟨_, rfl, same ▸ g.isPath_singleton target⟩
  · rename_i apart
    rcases findPath_spec con target source with found | ⟨none, out⟩
    · exact Or.inl found
    · refine Or.inr ⟨none, fun way => out ?_⟩
      have nodes := way.nodes con fun same => apart same.symm
      exact ⟨nodes.1, nodes.2, way⟩

/-- The test for a loop comes to an end, and says whether the source of the edge can be reached
from its target. -/
theorem closesCycle_spec {g : Graph} (con : g.Consistent) (source target : String) :
    ∃ closes, g.closesCycle source target = .ok closes ∧
      (closes = true ↔ g.Reaches target source) := by
  unfold closesCycle
  rcases cyclePath_spec con source target with ⟨path, found, isPath⟩ | ⟨none, apart⟩
  · rw [found]
    exact ⟨true, rfl, iff_of_true rfl isPath.reaches⟩
  · rw [none]
    exact ⟨false, rfl, iff_of_false Bool.false_ne_true apart⟩

/-! ## Graphs that are built call by call -/

/-- In every graph that is built call by call, with loops or without, the search for a path comes to
its end, and finds one between two nodes where edges lead from the first to the second; from a
node to itself they always do. What it finds begins with the first and ends with the second,
goes along an edge at each step, and takes no key twice. -/
theorem path_is_found_where_edges_lead (calls : List Call) (start goal : String) :
    ∃ result, (built calls).findPath start goal = .ok result ∧
      (result.isSome ↔ start ∈ (built calls).keys ∧ goal ∈ (built calls).keys ∧
        ReflTransGen (built calls).Edge start goal) ∧
      (∀ path, result = some path → (built calls).IsPath start goal path) ∧
      (start ∈ (built calls).keys → goal ∈ (built calls).keys → start ≠ goal →
        (built calls).EndsIn goal ⟨[start], [[start]]⟩ result) := by
  have con := consistent_built calls
  rcases findPath_spec con start goal with ⟨path, ran, isPath⟩ | ⟨ran, apart⟩
  · obtain ⟨nodes, ends⟩ := findPath_endsIn con ran
    obtain ⟨hs, hg⟩ := nodes rfl
    refine ⟨some path, ran, iff_of_true rfl ⟨hs, hg, isPath.reaches⟩, ?_, ends⟩
    rintro _ ⟨⟩
    exact isPath
  · exact ⟨none, ran, iff_of_false Bool.false_ne_true apart, nofun, (findPath_endsIn con ran).2⟩

/-- Two ways from one key to another, a way back, and a key apart from these. -/
def looped : List Call :=
  [.ensure "A1", .ensure "B1", .ensure "C1", .ensure "D1", .ensure "E1", .addEdge "A1" "B1",
    .addEdge "A1" "C1", .addEdge "B1" "D1", .addEdge "C1" "D1", .addEdge "D1" "A1"]

/-- The search goes on from the key that it found last, and through the loop it comes to an end. -/
theorem path_is_found_where_edges_lead_of_looped :
    (built looped).IsPath "A1" "D1" ["A1", "C1", "D1"] ∧
      (built looped).EndsIn "E1" ⟨["A1"], [["A1"]]⟩ none ∧
      ¬ ReflTransGen (built looped).Edge "A1" "E1" := by
  have found : (built looped).findPath "A1" "D1" = .ok (some ["A1", "C1", "D1"]) := by rfl
  have none : (built looped).findPath "A1" "E1" = .ok Option.none := by rfl
  have nodes : "A1" ∈ (built looped).keys ∧ "E1" ∈ (built looped).keys := by decide
  obtain ⟨_, ran, _, paths, _⟩ := path_is_found_where_edges_lead looped "A1" "D1"
  obtain ⟨_, ran', leads, _, ends⟩ := path_is_found_where_edges_lead looped "A1" "E1"
  cases found.symm.trans ran
  cases none.symm.trans ran'
  refine ⟨paths _ rfl, ends nodes.1 nodes.2 (by decide), fun way => ?_⟩
  exact absurd (leads.2 ⟨nodes.1, nodes.2, way⟩) (by simp)

end Worksheet.Graph
