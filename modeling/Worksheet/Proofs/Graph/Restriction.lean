-- A graph seen from some of its keys. Where no kept key has an edge from one that is not, the
-- search between kept keys finds the same path with and without the others.
import Worksheet.Proofs.Graph.Search

namespace Worksheet.Graph

/-- What there is in `h` is what there is in `g` at the keys that are kept, and no edge of `g` leads
to them from the others. -/
structure Within (keep : String → Bool) (g h : Graph) : Prop where
  dependents : ∀ s, keep s = true → h.dependents s = (g.dependents s).filter keep
  nodes : ∀ k ∈ h.keys, keep k = true ∧ k ∈ g.keys
  inward : ∀ s t, g.Edge s t → keep t = true → keep s = true

variable {keep : String → Bool} {g h : Graph}

theorem within_empty (keep : String → Bool) : Within keep empty empty where
  dependents s _ := by
    simp [empty, Graph.dependents, Roster.empty, Roster.get?, Entries.get?]
  nodes k hk := by simp [keys, empty, Roster.keys, Roster.empty, Entries.keys] at hk
  inward s t edge _ := by
    have node := edge.source_mem
    simp [keys, empty, Roster.keys, Roster.empty, Entries.keys] at node

theorem Within.ensure (rel : Within keep g h) {key : String} (kept : keep key = true) :
    Within keep (g.ensure key) (h.ensure key) where
  dependents s hs := by rw [dependents_ensure, dependents_ensure, rel.dependents s hs]
  nodes k hk := by
    rw [mem_keys_ensure] at hk ⊢
    rcases hk with old | rfl
    · exact ⟨(rel.nodes k old).1, Or.inl (rel.nodes k old).2⟩
    · exact ⟨kept, Or.inr rfl⟩
  inward s t edge := rel.inward s t ((edge_ensure g key s t).1 edge)

theorem Within.ensure_left (rel : Within keep g h) (key : String) :
    Within keep (g.ensure key) h where
  dependents s hs := by rw [dependents_ensure, rel.dependents s hs]
  nodes k hk := ⟨(rel.nodes k hk).1, (mem_keys_ensure g key k).2 (Or.inl (rel.nodes k hk).2)⟩
  inward s t edge := rel.inward s t ((edge_ensure g key s t).1 edge)

theorem Within.addEdge (rel : Within keep g h) {source target : String}
    (kept : keep source = true ∧ keep target = true) (hs : source ∈ h.keys) (ht : target ∈ h.keys)
    {g' : Graph} (added : g.addEdge source target = .ok g') :
    ∃ h', h.addEdge source target = .ok h' ∧ Within keep g' h' := by
  obtain ⟨g₁, added₁, keys, dependents, _⟩ :=
    addEdge_of_mem (rel.nodes source hs).2 (rel.nodes target ht).2
  cases added.symm.trans added₁
  obtain ⟨h', added', keys', dependents', _⟩ := addEdge_of_mem hs ht
  refine ⟨h', added', ⟨?_, ?_, ?_⟩⟩
  · intro s keeps
    have there : target ∈ h.dependents source ↔ target ∈ g.dependents source := by
      rw [rel.dependents source kept.1, List.mem_filter]
      simp [kept.2]
    rw [dependents, dependents']
    by_cases new : s = source ∧ target ∉ g.dependents source
    · rw [if_pos new, if_pos ⟨new.1, fun old => new.2 (there.1 old)⟩, List.filter_append,
        rel.dependents source kept.1]
      simp [kept.2]
    · rw [if_neg new, if_neg fun h => new ⟨h.1, fun old => h.2 (there.2 old)⟩]
      exact rel.dependents s keeps
  · intro k hk
    rw [keys'] at hk
    rw [keys]
    exact rel.nodes k hk
  · intro s t edge keeps
    unfold Edge at edge
    rw [dependents] at edge
    split at edge
    · rename_i new
      exact new.1 ▸ kept.1
    · exact rel.inward s t edge keeps

theorem Within.addEdge_left (rel : Within keep g h) {source target : String}
    (dropped : keep target = false) (hs : source ∈ g.keys) (ht : target ∈ g.keys) {g' : Graph}
    (added : g.addEdge source target = .ok g') : Within keep g' h := by
  obtain ⟨g₁, added₁, keys, dependents, _⟩ := addEdge_of_mem hs ht
  cases added.symm.trans added₁
  refine ⟨?_, ?_, ?_⟩
  · intro s keeps
    rw [dependents, rel.dependents s keeps]
    split
    · rename_i new
      rw [new.1, List.filter_append]
      simp [dropped]
    · rfl
  · exact fun k hk => ⟨(rel.nodes k hk).1, keys ▸ (rel.nodes k hk).2⟩
  · intro s t edge keeps
    unfold Edge at edge
    rw [dependents] at edge
    split at edge
    · rename_i new
      rw [new.1]
      rcases List.mem_append.1 edge with old | last
      · exact rel.inward source t old keeps
      · rw [List.mem_singleton.1 last, dropped] at keeps
        cases keeps
    · exact rel.inward s t edge keeps

theorem Within.reaches_dropped (rel : Within keep g h) {start goal : String}
    (way : g.Reaches start goal) (dropped : keep start = false) : keep goal = false := by
  induction way with
  | refl => exact dropped
  | tail _ edge ih =>
    by_contra keeps
    rw [rel.inward _ _ edge (eq_true_of_ne_false keeps)] at ih
    cases ih

def Frontier.restrict (keep : String → Bool) (f : Frontier) : Frontier :=
  ⟨f.visited.filter keep, f.stack.filter fun p => p.head?.any keep⟩

def Sight.restrict (keep : String → Bool) : Sight → Sight
  | .goal found => .goal found
  | .beyond f => .beyond (f.restrict keep)

/-- A look at kept keys alone sees what a look at all keys sees of them. -/
theorem look_restrict {goal : String} (keepsGoal : keep goal = true) (path keys : List String)
    (f : Frontier) :
    look goal path (keys.filter keep) (f.restrict keep) =
      (look goal path keys f).restrict keep := by
  induction keys generalizing f with
  | nil => rfl
  | cons key rest ih =>
    by_cases keeps : keep key = true
    · have same : (f.restrict keep).visited.contains key = f.visited.contains key := by
        simp [Frontier.restrict, keeps]
      rw [List.filter_cons_of_pos keeps, look, look, same]
      by_cases seen : f.visited.contains key = true
      · rw [if_pos seen, if_pos seen]
        exact ih f
      · rw [if_neg seen, if_neg seen]
        by_cases here : key = goal
        · rw [if_pos here, if_pos here]
          rfl
        · rw [if_neg here, if_neg here, ← ih]
          simp [Frontier.restrict, keeps]
    · rw [List.filter_cons_of_neg keeps, look]
      by_cases seen : f.visited.contains key = true
      · rw [if_pos seen]
        exact ih f
      · rw [if_neg seen, if_neg fun here : key = goal => keeps (here ▸ keepsGoal), ← ih]
        simp [Frontier.restrict, keeps]

theorem Frontier.restrict_cons_of_pos {key : String} (keeps : keep key = true)
    (visited path : List String) (stack : List (List String)) :
    Frontier.restrict keep ⟨visited, (key :: path) :: stack⟩ =
      ⟨(Frontier.restrict keep ⟨visited, stack⟩).visited,
        (key :: path) :: (Frontier.restrict keep ⟨visited, stack⟩).stack⟩ := by
  simp [restrict, keeps]

theorem Frontier.restrict_cons_of_neg {key : String} (drops : ¬ keep key = true)
    (visited path : List String) (stack : List (List String)) :
    Frontier.restrict keep ⟨visited, (key :: path) :: stack⟩ =
      Frontier.restrict keep ⟨visited, stack⟩ := by
  simp [restrict, drops]

/-- The search goes the same way with and without the keys that are not kept. -/
theorem Within.search (rel : Within keep g h) (conG : g.Consistent) (conH : h.Consistent)
    {start goal : String} (keepsGoal : keep goal = true) {turns turns' : Nat} {f : Frontier}
    (inv : g.Searching start goal f) (inv' : h.Searching start goal (f.restrict keep))
    (room : g.size + 1 + f.stack.length ≤ f.visited.length + turns)
    (room' : h.size + 1 + (f.restrict keep).stack.length ≤
      (f.restrict keep).visited.length + turns') :
    h.search goal turns' (f.restrict keep) = g.search goal turns f := by
  induction turns generalizing f turns' with
  | zero => exact absurd rfl (inv.room room)
  | succ turns ih =>
    obtain ⟨visited, stack⟩ := f
    cases stack with
    | nil => cases turns' <;> rfl
    | cons top stack =>
      obtain ⟨key, path, rfl, _, seen⟩ := inv.paths _ (List.mem_cons_self ..)
      obtain ⟨links, found, hd, _⟩ :=
        exists_links (inv.nodes key (seen key (List.mem_cons_self ..)))
      have looks := look_restrict keepsGoal (key :: path) (g.dependents key) ⟨visited, stack⟩
      rw [Graph.search, found]
      simp only [hd]
      by_cases keeps : keep key = true
      · cases turns' with
        | zero => exact absurd rfl (inv'.room room')
        | succ turns' =>
          rw [Frontier.restrict_cons_of_pos keeps] at inv' room' ⊢
          obtain ⟨_, _, same, _, seen'⟩ := inv'.paths _ (List.mem_cons_self ..)
          cases same
          obtain ⟨links', found', hd', _⟩ :=
            exists_links (inv'.nodes key (seen' key (List.mem_cons_self ..)))
          rw [Graph.search, found']
          simp only [hd', rel.dependents key keeps]
          rcases looked : look goal (key :: path) (g.dependents key) ⟨visited, stack⟩ with p | f
          · rw [looked] at looks
            simp only [looks, Sight.restrict]
          · rw [looked] at looks
            simp only [looks, Sight.restrict]
            have inv'' := inv'.beyond conH ((rel.dependents key keeps).symm ▸ looks)
            exact ih (inv.beyond conG looked) inv'' (room_beyond looked room)
              (room_beyond looks room')
      · -- All that the key leads to is dropped with it.
        have none : (g.dependents key).filter keep = [] :=
          List.filter_eq_nil_iff.2 fun t edge kept => keeps (rel.inward key t edge kept)
        rw [none, look] at looks
        rw [Frontier.restrict_cons_of_neg keeps] at inv' room' ⊢
        rcases looked : look goal (key :: path) (g.dependents key) ⟨visited, stack⟩ with p | f
        · rw [looked] at looks
          cases looks
        · rw [looked] at looks
          obtain same : Frontier.restrict keep ⟨visited, stack⟩ = f.restrict keep :=
            Sight.beyond.inj looks
          rw [same] at inv' room' ⊢
          exact ih (inv.beyond conG looked) inv' (room_beyond looked room) room'

/-- A reference between kept keys closes the same loop with and without the others, where the key
that is read is a node as soon as it reads anything. -/
theorem Within.cyclePath (rel : Within keep g h) (conG : g.Consistent) (conH : h.Consistent)
    {source target : String} (kept : keep source = true ∧ keep target = true)
    (node : target ∈ h.keys) (reading : ∀ s, g.Edge s source → source ∈ h.keys) :
    h.cyclePath source target = g.cyclePath source target := by
  by_cases same : source = target
  · unfold Graph.cyclePath
    rw [if_pos same, if_pos same]
  by_cases there : source ∈ h.keys
  · have apart : target ≠ source := Ne.symm same
    have nodeG := rel.nodes target node
    have thereG := rel.nodes source there
    have start : Frontier.restrict keep ⟨[target], [[target]]⟩ = ⟨[target], [[target]]⟩ := by
      simp [Frontier.restrict, kept.2]
    have room : ∀ size : Nat, size + 1 + [[target]].length ≤ [target].length + (size + 1) := by
      intro size
      simp only [List.length_singleton]
      omega
    have inv := searching_start node apart
    have room' := room h.size
    rw [← start] at inv
    have searched := rel.search conG conH kept.1 (searching_start nodeG.2 apart) inv
      (room g.size) (by rw [start]; exact room')
    rw [start] at searched
    unfold Graph.cyclePath Graph.findPath
    rw [if_neg same, if_neg same, (mem_keys_iff _ _).1 node, (mem_keys_iff _ _).1 there, (mem_keys_iff _ _).1 nodeG.2,
      (mem_keys_iff _ _).1 thereG.2]
    simp only [if_neg apart]
    exact searched
  · have out : ¬ g.Reaches target source := by
      intro way
      rcases Relation.ReflTransGen.cases_tail_iff _ _ _ |>.1 way with back | ⟨s, _, edge⟩
      · exact same back
      · exact there (reading s edge)
    rcases g.cyclePath_spec conG source target with ⟨path, _, isPath⟩ | ⟨none, _⟩
    · exact absurd isPath.reaches out
    · rw [none, Graph.cyclePath, if_neg same, Graph.findPath]
      have absent : h.contains source = false :=
        eq_false_of_ne_true fun found => there ((mem_keys_iff _ _).2 found)
      simp [absent]

end Worksheet.Graph
