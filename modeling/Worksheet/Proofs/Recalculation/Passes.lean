-- Passes over a wired table. A turn changes the slot of its own key and no other, and a formula
-- whose turn comes reads keys only that had their turns before. So every further pass comes to the
-- same.
import Worksheet.Proofs.Recalculation.Settling

namespace Worksheet

open Worksheet.Formula (mem_references_of_asked)

/-! ## Errors that show -/

def Outcome.failed : Outcome → Bool
  | .error _ => true
  | .ok _ => false

def Slot.failed (s : Slot) : Bool := s.outcome.any Outcome.failed

namespace Wiring

def failsAt (w : Wiring) (key : String) : Bool :=
  (w.slots.get? key).any fun s => s.isFormula && s.failed

/-- How many nodes have a formula that shows an error. -/
def failures (w : Wiring) : Nat := w.graph.keys.countP w.failsAt

/-- The formula at a key is one to evaluate: it was read, and shows no error. -/
def Evaluates (w : Wiring) (key : String) (f : Formula) : Prop :=
  ∃ s, w.slots.get? key = some s ∧ s.isFormula = true ∧ s.tree = some f ∧ s.failed = false

/-- Every formula that could not be read shows an error. -/
def UnreadFail (w : Wiring) : Prop :=
  ∀ key s, w.slots.get? key = some s → s.isFormula = true → s.tree = none → s.failed = true

variable {w u v : Wiring} {p q r : Progress} {key : String} {keys : List String} {f : Formula}

theorem Complete.unreadFail {limit : Formula.Limit} {bounds : Bounds}
    {entries : List (String × Cell)}
    (inv : Complete limit bounds entries w) : w.UnreadFail := by
  intro key s found formula unread
  rw [inv.slots, Option.map_eq_some_iff] at found
  obtain ⟨e, first, rfl⟩ := found
  by_cases flag : key ∈ w.flagged
  · rw [if_pos flag]
    rfl
  · rw [if_neg flag] at formula unread ⊢
    have written : e.2.formula?.isSome = true := formula
    have none : e.2.parsed? limit = none := unread
    simp [Slot.start, Slot.failed, Outcome.failed, written, none]

theorem failsAt_congr (same : w.slots.get? key = v.slots.get? key) :
    w.failsAt key = v.failsAt key := by
  unfold failsAt
  rw [same]

/-! ## One turn -/

theorem evaluateKey_of_evaluates (h : p.1.Evaluates key f) :
    evaluateKey p key = evaluateFormula p key f := by
  obtain ⟨s, found, formula, tree, sound⟩ := h
  unfold evaluateKey
  simp only [found, formula, tree, Bool.not_true, Bool.false_eq_true, if_false]
  rcases outcome : s.outcome with _ | _ | x
  · rfl
  · simp [Slot.failed, Outcome.failed, outcome] at sound
  · rfl

/-- Where no formula is to be evaluated nothing changes, and an error that shows counts. -/
theorem evaluateKey_of_not_evaluates (marked : p.1.UnreadFail) (h : ∀ f, ¬ p.1.Evaluates key f) :
    evaluateKey p key = .ok (p.1, p.2 + if p.1.failsAt key then 1 else 0) := by
  unfold evaluateKey failsAt
  rcases found : p.1.slots.get? key with _ | s
  · rfl
  · rcases formula : s.isFormula with _ | _
    · simp [formula]
    · simp only [formula, Option.any_some, Bool.true_and, Bool.not_true, Bool.false_eq_true,
        if_false]
      rcases tree : s.tree with _ | f
      · rw [marked key s found formula tree]
        rfl
      · have failed : s.failed = true := by
          by_contra sound
          exact h f ⟨s, found, formula, tree, by simpa using sound⟩
        rw [failed]
        rcases outcome : s.outcome with _ | _ | x
        · simp [Slot.failed, outcome] at failed
        · rfl
        · simp [Slot.failed, Outcome.failed, outcome] at failed

/-- What the turns of some keys do: their slots may change and no others, and the errors that show
at them then are counted. -/
structure Turns (keys : List String) (p q : Progress) : Prop where
  graph : q.1.graph = p.1.graph
  others : ∀ k, k ∉ keys → q.1.slots.get? k = p.1.slots.get? k
  unread : q.1.UnreadFail
  count : q.2 = p.2 + keys.countP q.1.failsAt

theorem turns_nil (marked : p.1.UnreadFail) : Turns [] p p where
  graph := rfl
  others _ _ := rfl
  unread := marked
  count := rfl

theorem Turns.append {keys' : List String} (first : Turns keys p q) (next : Turns keys' q r)
    (apart : ∀ k ∈ keys, k ∉ keys') : Turns (keys ++ keys') p r where
  graph := next.graph.trans first.graph
  others k hk := by
    rw [List.mem_append, not_or] at hk
    exact (next.others k hk.2).trans (first.others k hk.1)
  unread := next.unread
  count := by
    have kept : keys.countP r.1.failsAt = keys.countP q.1.failsAt :=
      List.countP_congr fun k hk => by rw [failsAt_congr (next.others k (apart k hk))]
    rw [next.count, first.count, List.countP_append, kept, Nat.add_assoc]

theorem UnreadFail.setOutcome (marked : w.UnreadFail) (h : w.Evaluates key f) (o : Outcome) :
    (w.setOutcome key o).UnreadFail := by
  intro k s found formula unread
  rw [get?_setOutcome] at found
  split at found
  · rename_i here
    obtain ⟨old, at', rfl⟩ := Option.map_eq_some_iff.1 found
    obtain ⟨s, found', _, tree, _⟩ := h
    cases (here ▸ found').symm.trans at'
    cases tree.symm.trans unread
  · exact marked k s found formula unread

theorem failsAt_setOutcome (h : w.Evaluates key f) (o : Outcome) :
    (w.setOutcome key o).failsAt key = o.failed := by
  obtain ⟨s, found, formula, _, _⟩ := h
  have formula' : (s.settle o).isFormula = true := formula
  simp only [failsAt, get?_setOutcome, if_true, found, Option.map_some, Option.any_some, formula',
    Bool.true_and]
  rfl

/-- A turn changes its own slot at most, and counts an error where one shows then. -/
theorem turns_of_evaluateKey (marked : p.1.UnreadFail) (h : evaluateKey p key = .ok q) :
    Turns [key] p q := by
  by_cases eval : ∃ f, p.1.Evaluates key f
  · obtain ⟨f, eval⟩ := eval
    have others : ∀ o k, k ∉ [key] →
        (p.1.setOutcome key o).slots.get? k = p.1.slots.get? k := by
      intro o k other
      rw [get?_setOutcome, if_neg (by simpa using other)]
    have fails : ∀ o, [key].countP (p.1.setOutcome key o).failsAt = if o.failed then 1 else 0 := by
      intro o
      rw [List.countP_singleton, failsAt_setOutcome eval]
    rw [evaluateKey_of_evaluates eval] at h
    obtain ⟨x, _, step⟩ := exists_of_bind h
    split at step <;> cases step
    · exact ⟨rfl, others _, marked.setOutcome eval _, congrArg (p.2 + ·) (fails (.error _)).symm⟩
    · exact ⟨rfl, others _, marked.setOutcome eval _, congrArg (p.2 + ·) (fails (.ok _)).symm⟩
  · rw [evaluateKey_of_not_evaluates marked (not_exists.1 eval)] at h
    cases h
    exact ⟨rfl, fun _ _ => rfl, marked, by rw [List.countP_singleton]⟩

theorem turns_of_run (marked : p.1.UnreadFail) (nodup : keys.Nodup)
    (run : keys.foldlM evaluateKey p = .ok q) : Turns keys p q := by
  refine foldlM_keeps (fun done r => Turns done p r) (turns_nil marked) ?_ run
  intro done key rest whole r r' inv step
  refine inv.append (turns_of_evaluateKey inv.unread step) fun k hk here => ?_
  rw [whole] at nodup
  obtain rfl := List.mem_singleton.1 here
  exact (List.nodup_append.1 nodup).2.2 k hk k (List.mem_cons_self ..) rfl

/-! ## Passes -/

/-- Evaluates a wiring some times in a row, and gives the errors that each pass counts. -/
def evaluateTimes : Nat → Wiring → Except Fault (Wiring × List Nat)
  | 0, w => .ok (w, [])
  | passes + 1, w => do
    let (v, errors) ← w.evaluate
    let (u, counts) ← evaluateTimes passes v
    .ok (u, errors :: counts)

theorem Settled.due_of_evaluates {done : List String} (ready : w.Ready) (inv : Settled w done u)
    (h : u.Evaluates key f) : ∃ s, w.slots.get? key = some s ∧ s.due = some f := by
  obtain ⟨s, found, _, tree, sound⟩ := h
  rcases w.due_or_idle key with ⟨s', f', found', due⟩ | idle
  · refine ⟨s', found', ?_⟩
    by_cases member : key ∈ done
    · obtain ⟨x, _, _, new⟩ := inv.settled key member s' f' found' due
      cases found.symm.trans new
      have tree' : s'.tree = some f := tree
      rw [due, ← tree', (Slot.due_eq_some_iff.1 due).1]
    · rw [inv.untouched key member, found'] at found
      cases found
      rw [due, ← tree, (Slot.due_eq_some_iff.1 due).1]
  · rw [inv.kept key idle] at found
    have open' : s.outcome = none := by
      rcases outcome : s.outcome with _ | o
      · rfl
      · obtain ⟨code, rfl⟩ := (ready.slots key s found).2.pending o outcome
        simp [Slot.failed, Outcome.failed, outcome] at sound
    exact absurd (Slot.due_eq_some_iff.2 ⟨tree, open'⟩) (by rw [idle s found]; nofun)

theorem setOutcome_eq_self {s : Slot} {o : Outcome} (found : w.slots.get? key = some s)
    (same : s.outcome = some o) : w.setOutcome key o = w := by
  have unchanged : { s with outcome := some o } = s := by rw [← same]
  unfold setOutcome Roster.modify
  rw [found]
  simp only [unchanged]
  rw [Roster.put_eq_self found]

theorem Settled.again {done : List String} (ready : w.Ready) (inv : Settled w done v)
    (marked : v.UnreadFail) (member : key ∈ done) (errors : Nat) :
    evaluateKey (v, errors) key = .ok (v, errors + if v.failsAt key then 1 else 0) := by
  by_cases eval : ∃ f, v.Evaluates key f
  · obtain ⟨f, eval⟩ := eval
    obtain ⟨s, found, due⟩ := inv.due_of_evaluates ready eval
    obtain ⟨x, came, _, new⟩ := inv.settled key member s f found due
    have kept : v.setOutcome key (verdict x) = v := setOutcome_eq_self new rfl
    have shows : v.failsAt key = (verdict x).failed := kept ▸ failsAt_setOutcome eval (verdict x)
    have sound : (verdict x).failed = false := by
      obtain ⟨s', found', _, _, sound⟩ := eval
      cases found'.symm.trans new
      exact sound
    rw [evaluateKey_of_evaluates eval, evaluateFormula, came, shows, sound]
    cases x with
    | error code => cases sound
    | _ => exact congrArg (fun w => Except.ok (w, errors)) kept
  · exact evaluateKey_of_not_evaluates marked (not_exists.1 eval)

/-- The first pass comes to its end, and counts the errors that show then. -/
theorem Ready.first_pass (ready : w.Ready) (marked : w.UnreadFail) :
    ∃ order v, w.graph.order = .ok order ∧ w.graph.IsOrder order ∧
      w.evaluate = .ok (v, v.failures) ∧ Settled w order v ∧ v.UnreadFail := by
  obtain ⟨order, sorted, isOrder⟩ := Graph.order_spec ready.consistent ready.acyclic
  obtain ⟨⟨v, errors⟩, ran, settled⟩ := ready.run isOrder
  have turns := turns_of_run (p := (w, 0)) marked isOrder.nodup ran
  have count : errors = v.failures := by
    have all : errors = order.countP v.failsAt := by simpa using turns.count
    have graph : v.graph = w.graph := settled.graph
    rw [all, failures, graph]
    exact isOrder.perm.countP_eq _
  refine ⟨order, v, sorted, isOrder, ?_, settled, turns.unread⟩
  rw [Wiring.evaluate, sorted, ← count]
  exact ran

/-- A pass over what is evaluated changes nothing, and counts the same errors. -/
theorem Settled.next_pass {order : List String} (ready : w.Ready) (inv : Settled w order v)
    (marked : v.UnreadFail) (sorted : w.graph.order = .ok order) (isOrder : w.graph.IsOrder order) :
    v.evaluate = .ok (v, v.failures) := by
  have ends : ∃ p, order.foldlM evaluateKey (v, 0) = .ok p ∧ p = (v, order.countP v.failsAt) := by
    apply exists_foldlM (fun done p => p = (v, done.countP v.failsAt)) rfl
    rintro done key rest whole _ rfl
    refine ⟨_, inv.again ready marked (by simp [whole]) _, ?_⟩
    rw [List.countP_append, List.countP_singleton]
  obtain ⟨_, ran, rfl⟩ := ends
  rw [evaluate, inv.graph, sorted, failures, inv.graph, ← isOrder.perm.countP_eq v.failsAt]
  exact ran

theorem evaluateTimes_succ {errors : Nat} (h : w.evaluate = .ok (v, errors)) (passes : Nat) :
    w.evaluateTimes (passes + 1) =
      (v.evaluateTimes passes).map fun p => (p.1, errors :: p.2) := by
  rw [evaluateTimes, h]
  rfl

theorem evaluateTimes_of_fixed {errors : Nat} (h : v.evaluate = .ok (v, errors)) (passes : Nat) :
    v.evaluateTimes passes = .ok (v, List.replicate passes errors) := by
  induction passes with
  | zero => rfl
  | succ passes ih =>
    rw [evaluateTimes_succ h, ih]
    rfl

/-- However often a wired table is evaluated, the first pass computes all: every further one leaves
every slot as it is, and each counts the formulas that show an error at the end. -/
theorem evaluate_repeats_unchanged {settings : Settings} {bounds : Bounds} {cells : Roster Cell}
    (wired : ofCells settings bounds cells = .ok w) :
    ∃ v, w.evaluate = .ok (v, v.failures) ∧
      ∀ n, w.evaluateTimes (n + 1) = .ok (v, List.replicate (n + 1) v.failures) := by
  have complete := complete_of_run wired
  have ready := complete.ready
  obtain ⟨order, v, sorted, isOrder, ran, settled, marked⟩ := ready.first_pass complete.unreadFail
  have fixed := settled.next_pass ready marked sorted isOrder
  refine ⟨v, ran, fun n => ?_⟩
  rw [evaluateTimes_succ ran, evaluateTimes_of_fixed fixed]
  rfl

/-- A quotient by zero, two formulas in a loop and a text that is no formula count, each time. -/
theorem evaluate_repeats_unchanged_of_errors :
    ∃ w v, ofCells .usual ⟨["A", "B", "C", "D", "E"], 1⟩
        (.ofEntries [("a1", ⟨none, some "=b1/0", none⟩), ("B1", ⟨some "2", none, none⟩),
          ("C1", ⟨none, some "=A1+B1", none⟩), ("D1", ⟨none, some "=E1", none⟩),
          ("E1", ⟨none, some "=D1", none⟩), ("A01", ⟨none, some "=1+", none⟩)]) = .ok w ∧
      w.evaluate = .ok (v, 4) ∧ w.evaluateTimes 3 = .ok (v, [4, 4, 4]) := by
  have counted : ((ofCells .usual ⟨["A", "B", "C", "D", "E"], 1⟩
      (.ofEntries [("a1", ⟨none, some "=b1/0", none⟩), ("B1", ⟨some "2", none, none⟩),
        ("C1", ⟨none, some "=A1+B1", none⟩), ("D1", ⟨none, some "=E1", none⟩),
        ("E1", ⟨none, some "=D1", none⟩), ("A01", ⟨none, some "=1+", none⟩)])).toOption.bind
      fun w => w.evaluate.toOption.map Prod.snd) = some 4 := by
    decide +kernel
  obtain ⟨w, hw, count⟩ := Option.bind_eq_some_iff.1 counted
  have wired := eq_ok_of_toOption hw
  obtain ⟨v, first, later⟩ := evaluate_repeats_unchanged wired
  have four : v.failures = 4 := by
    rw [first] at count
    exact Option.some.inj count
  exact ⟨w, v, wired, four ▸ first, four ▸ later 2⟩

/-! ## What is read -/

theorem Turns.read_eq (turns : Turns keys p q) {k : String} (other : k ∉ keys) :
    q.1.read k = p.1.read k :=
  read_congr (by rw [turns.graph]) (turns.others k other)

theorem Turns.evaluates (turns : Turns keys p q) (other : key ∉ keys) (h : q.1.Evaluates key f) :
    p.1.Evaluates key f := by
  obtain ⟨s, found, rest⟩ := h
  exact ⟨s, turns.others key other ▸ found, rest⟩

theorem Settled.edge_of_asked {done : List String} (ready : w.Ready) (inv : Settled w done u)
    (eval : u.Evaluates key f) {lookup : Formula.Lookup} {k : String}
    (asked : k ∈ (f.body.compute lookup).keys) : w.graph.Edge k key := by
  obtain ⟨s, found, due⟩ := inv.due_of_evaluates ready eval
  exact (ready.reads key s f found due).2 k (mem_references_of_asked asked)

/-- After any number of passes the wiring is as at the start, or all of it is evaluated. A further
pass comes to its end. -/
theorem Ready.settled_of_evaluateTimes (ready : w.Ready) (marked : w.UnreadFail) {passes : Nat}
    {counts : List Nat} (passed : w.evaluateTimes passes = .ok (u, counts)) :
    u.UnreadFail ∧ (∃ done, Settled w done u) ∧ ∃ p, u.evaluate = .ok p := by
  obtain ⟨order, v, sorted, isOrder, ran, settled, markedV⟩ := ready.first_pass marked
  cases passes with
  | zero =>
    cases passed
    exact ⟨marked, ⟨[], settled_start w⟩, _, ran⟩
  | succ passes =>
    have fixed := settled.next_pass ready markedV sorted isOrder
    rw [evaluateTimes_succ ran, evaluateTimes_of_fixed fixed] at passed
    cases passed
    exact ⟨markedV, ⟨order, settled⟩, _, fixed⟩

/-- Nothing is read before it is computed. In every pass, whatever a formula asks for when its turn
comes is a node with an edge to it that had its turn before; it is found, and what is found there
stays to the end of the pass. -/
theorem asked_cells_are_computed_before {settings : Settings} {bounds : Bounds}
    {cells : Roster Cell} (wired : ofCells settings bounds cells = .ok w) {passes : Nat}
    {counts : List Nat} (passed : w.evaluateTimes passes = .ok (u, counts)) :
    ∃ order, u.graph.order = .ok order ∧ ∀ before key rest, order = before ++ key :: rest →
      ∃ p, before.foldlM evaluateKey (u, 0) = .ok p ∧ ∀ f, p.1.Evaluates key f →
        evaluateKey p key = evaluateFormula p key f ∧
        ∀ k ∈ (f.body.compute p.1.read).keys,
          k ∈ u.graph.keys ∧ k ∈ u.graph.dependencies key ∧ k ∈ before ∧
          ∃ x, p.1.read k = .ok x ∧ ∀ later rest', rest = later ++ rest' →
            ∃ q, (key :: later).foldlM evaluateKey p = .ok q ∧ q.1.read k = .ok x := by
  have complete := complete_of_run wired
  have ready := complete.ready
  obtain ⟨marked, ⟨done, settled⟩, last, ran⟩ :=
    ready.settled_of_evaluateTimes complete.unreadFail passed
  obtain ⟨order, sorted, isOrder⟩ := Graph.order_spec ready.consistent ready.acyclic
  rw [← settled.graph] at sorted
  rw [Wiring.evaluate, sorted] at ran
  refine ⟨order, sorted, ?_⟩
  rintro before key rest rfl
  obtain ⟨p, front, back⟩ := exists_of_foldlM_append ran
  -- No key stands twice in an order, so the turns before and after a key leave its slot alone.
  have nodup := List.nodup_append.1 isOrder.nodup
  have frontTurns := turns_of_run marked nodup.1 front
  have fresh : key ∉ before := fun h => nodup.2.2 key h key (List.mem_cons_self ..) rfl
  refine ⟨p, front, fun f eval => ⟨evaluateKey_of_evaluates eval, fun k asked => ?_⟩⟩
  have edge := settled.edge_of_asked ready (frontTurns.evaluates fresh eval) asked
  have reads := (ready.consistent.mirror k key).1 edge
  have earlier := isOrder.ascends before key rest rfl k reads
  have node : k ∈ u.graph.keys := settled.graph ▸ edge.source_mem
  have seen : p.1.graph.contains k = true :=
    frontTurns.graph ▸ (u.graph.mem_keys_iff k).1 node
  refine ⟨node, settled.graph ▸ reads, earlier, _, if_pos seen, ?_⟩
  rintro later rest' rfl
  rw [← List.cons_append] at back
  obtain ⟨q, ran', _⟩ := exists_of_foldlM_append back
  have part : (key :: later).Sublist (key :: (later ++ rest')) := by simp
  have turns := turns_of_run frontTurns.unread (nodup.2.1.sublist part) ran'
  have apart : k ∉ key :: later := fun h => nodup.2.2 k earlier k (part.subset h) rfl
  exact ⟨q, ran', (turns.read_eq apart).trans (if_pos seen)⟩

/-- The half of `B1` is computed after `B1`, where a reference off the grid is not even read. -/
theorem asked_cells_are_computed_before_of_a_half :
    ∃ w p f x, ofCells .usual ⟨["A", "B", "C", "D"], 1⟩
        (.ofEntries [("A1", ⟨none, some "=b1/2", none⟩), ("B1", ⟨none, some "=C1", none⟩),
          ("C1", ⟨some "8", none, none⟩), ("D1", ⟨none, some "=Z9+A1", none⟩)]) = .ok w ∧
      ["C1", "B1"].foldlM evaluateKey (w, 0) = .ok p ∧ p.1.Evaluates "A1" f ∧
      "B1" ∈ (f.body.compute p.1.read).keys ∧ "B1" ∈ w.graph.dependencies "A1" ∧
      p.1.read "B1" = .ok x := by
  have computed : ((ofCells .usual ⟨["A", "B", "C", "D"], 1⟩
      (.ofEntries [("A1", ⟨none, some "=b1/2", none⟩), ("B1", ⟨none, some "=C1", none⟩),
        ("C1", ⟨some "8", none, none⟩), ("D1", ⟨none, some "=Z9+A1", none⟩)])).toOption.bind
      fun w => (["C1", "B1"].foldlM evaluateKey (w, 0)).toOption.bind
      fun p => (p.1.slots.get? "A1").bind fun s => s.tree.filter fun f =>
        s.isFormula && !s.failed && w.graph.order.toOption == some ["C1", "B1", "A1", "D1"] &&
          (f.body.compute p.1.read).keys.contains "B1").isSome = true := by
    decide +kernel
  obtain ⟨f, picked⟩ := Option.isSome_iff_exists.1 computed
  obtain ⟨w, hw, picked⟩ := Option.bind_eq_some_iff.1 picked
  obtain ⟨p, hp, picked⟩ := Option.bind_eq_some_iff.1 picked
  obtain ⟨s, found, picked⟩ := Option.bind_eq_some_iff.1 picked
  obtain ⟨tree, tests⟩ := Option.filter_eq_some_iff.1 picked
  simp only [Bool.and_eq_true, Bool.not_eq_true', beq_iff_eq, List.contains_iff_mem] at tests
  obtain ⟨⟨⟨formula, sound⟩, sorted⟩, asked⟩ := tests
  have wired := eq_ok_of_toOption hw
  have eval : p.1.Evaluates "A1" f := ⟨s, found, formula, tree, sound⟩
  obtain ⟨order, sorted', turns⟩ := asked_cells_are_computed_before wired
    (show w.evaluateTimes 0 = .ok (w, []) from rfl)
  rw [sorted'] at sorted
  obtain ⟨p', front, reads⟩ := turns ["C1", "B1"] "A1" ["D1"] (Option.some.inj sorted)
  rw [eq_ok_of_toOption hp] at front
  cases front
  obtain ⟨_, dependency, _, x, read, _⟩ := (reads f eval).2 "B1" asked
  exact ⟨w, p, f, x, wired, eq_ok_of_toOption hp, eval, asked, dependency, read⟩

end Wiring

end Worksheet
