-- Evaluating a wiring. In an order where every key stands after the keys that it reads, a formula
-- reads only what is settled, and what is settled stays. So every formula then comes to what is
-- written down for it, and no other order ends in another state.
import Worksheet.Proofs.Graph.Sorting
import Worksheet.Proofs.Wiring.Laws
import Worksheet.Recalculation

namespace Worksheet

open Worksheet.Formula (Held Shown held_zero outcome_congr outcome_of_parse)

/-! ## What is due -/

/-- The formula that is still to be evaluated: one that was read, where nothing is flagged. -/
def Slot.due (s : Slot) : Option Formula := if s.outcome.isNone then s.tree else none

/-- What is written down for the value that a formula comes to. -/
def verdict : Value → Outcome
  | .error code => .error code
  | v => .ok v

theorem Slot.due_eq_some_iff {s : Slot} {f : Formula} :
    s.due = some f ↔ s.tree = some f ∧ s.outcome = none := by
  unfold due
  cases s.outcome <;> simp

def Slot.change (s : Slot) : Option Outcome → Slot
  | none => s
  | some o => s.settle o

theorem cases_of_rel {α β : Type} {R : α → β → Prop} {x : Option α} {y : Option β}
    (h : Option.Rel R x y) : x = none ∧ y = none ∨ ∃ a b, x = some a ∧ y = some b ∧ R a b := by
  cases h with
  | none => exact Or.inl ⟨rfl, rfl⟩
  | some related => exact Or.inr ⟨_, _, rfl, rfl, related⟩

/-- Two slots are alike: formulas see the same of them, and the formulas that are still to be
evaluated are alike. -/
structure Slot.Alike (s s' : Slot) : Prop where
  due : Option.Rel Formula.Alike s.due s'.due
  value : Wiring.slotValue s = Wiring.slotValue s'
  outcome : s.outcome = s'.outcome

theorem Slot.Alike.refl (s : Slot) : s.Alike s where
  due := by
    cases s.due with
    | none => exact .none
    | some f => exact .some (.refl f)
  value := rfl
  outcome := rfl

theorem Slot.Alike.value_change {s s' : Slot} (h : s.Alike s') (o : Option Outcome) :
    Wiring.slotValue (s.change o) = Wiring.slotValue (s'.change o) := by
  rcases o with _ | _ | x
  · exact h.value
  · rfl
  · rfl

namespace Wiring

theorem held_literalValue (c : Cell) : Held (literalValue c) := by
  unfold literalValue
  rcases typed : c.value.bind Value.ofLiteral? with _ | v
  · exact held_zero
  · obtain ⟨raw, _, read⟩ := Option.bind_eq_some_iff.1 typed
    unfold Value.ofLiteral? at read
    simp only at read
    split at read
    · cases read
    · split at read
      · rename_i x number
        cases read
        exact Number.isFinite_of_readFinite? number
      · split at read <;> cases read <;> trivial

theorem held_slotValue_settle {x : Value} (h : Shown x) (s : Slot) :
    Held (slotValue (s.settle (verdict x))) := by
  cases x with
  | error code => exact held_zero
  | _ => exact h

/-- A slot before any evaluation: its outcome is open, or an error. -/
structure Unevaluated (s : Slot) : Prop where
  held : Held (slotValue s)
  pending : ∀ o, s.outcome = some o → ∃ code, o = .error code
  formula : s.tree.isSome → s.isFormula

/-- A wiring that can be evaluated. -/
structure Ready (w : Wiring) : Prop where
  consistent : w.graph.Consistent
  acyclic : w.graph.Acyclic
  slots : ∀ key s, w.slots.get? key = some s → key ∈ w.graph.keys ∧ Unevaluated s
  reads : ∀ key s f, w.slots.get? key = some s → s.due = some f →
    (∃ text limit, Formula.parse text limit = .ok f) ∧ ∀ r ∈ f.references, w.graph.Edge r key

theorem unevaluated_start (limit : Formula.Limit) (e : String × Cell) : Unevaluated
    (Slot.start limit e) := by
  rcases written : e.2.formula? with _ | text
  · rw [Slot.start_of_literal written]
    refine ⟨?_, by simp, by simp⟩
    simp only [slotValue, Slot.isFormula, written, Option.isSome_none, Bool.false_eq_true, if_false]
    exact held_literalValue e.2
  · rcases parsed : Formula.parse text limit with cause | f
    · rw [Slot.start_of_error written parsed]
      exact ⟨held_zero, fun o ho => ⟨_, (Option.some.inj ho).symm⟩, by simp⟩
    · rw [Slot.start_of_ok written parsed]
      refine ⟨?_, by simp, by simp [Slot.isFormula, written]⟩
      simp only [slotValue, Slot.isFormula, written, Option.isSome_some, if_true]
      exact held_zero

theorem unevaluated_flagged {s : Slot} (h : Unevaluated s) (code : ErrorCode) :
    Unevaluated (s.settle (.error code)) :=
  ⟨held_zero, fun _ ho => ⟨code, (Option.some.inj ho).symm⟩, h.formula⟩

theorem Complete.ready {limit : Formula.Limit} {bounds : Bounds} {entries : List (String × Cell)}
    {w : Wiring} (inv : Complete limit bounds entries w) : w.Ready where
  consistent := inv.consistent
  acyclic := inv.acyclic
  slots key s found := by
    rw [inv.slots, Option.map_eq_some_iff] at found
    obtain ⟨e, first, rfl⟩ := found
    refine ⟨inv.nodes key e first, ?_⟩
    split
    · exact unevaluated_flagged (unevaluated_start limit e) .reference
    · exact unevaluated_start limit e
  reads key s f found due := by
    rw [inv.slots, Option.map_eq_some_iff] at found
    obtain ⟨e, first, rfl⟩ := found
    obtain ⟨tree, clear⟩ := Slot.due_eq_some_iff.1 due
    split at tree
    · rename_i flagged
      rw [if_pos flagged] at clear
      cases clear
    · rename_i unflagged
      have parsed : e.2.parsed? limit = some f := tree
      refine ⟨?_, fun r hr => ?_⟩
      · obtain ⟨text, _, read⟩ := Option.bind_eq_some_iff.1 parsed
        exact ⟨text, limit, eq_ok_of_toOption read⟩
      · have refers : Refers limit entries key r := ⟨e, first, by simpa [Cell.references, parsed]⟩
        exact (inv.handled key r refers).edge inv.toWired unflagged

theorem Complete.refers_of_due {limit : Formula.Limit} {bounds : Bounds}
    {entries : List (String × Cell)}
    {w : Wiring} (inv : Complete limit bounds entries w) {key : String} {s : Slot} {f : Formula}
    (found : w.slots.get? key = some s) (due : s.due = some f) {reference : String}
    (named : reference ∈ f.references) : Refers limit entries key reference :=
  (inv.edges reference key ((inv.ready.reads key s f found due).2 reference named)).1

theorem due_or_idle (w : Wiring) (key : String) :
    (∃ s f, w.slots.get? key = some s ∧ s.due = some f) ∨
      ∀ s, w.slots.get? key = some s → s.due = none := by
  rcases found : w.slots.get? key with _ | s
  · exact Or.inr nofun
  · rcases due : s.due with _ | f
    · exact Or.inr fun s' same => Option.some.inj same ▸ due
    · exact Or.inl ⟨s, f, rfl, due⟩

/-! ## One key -/

theorem evaluateKey_of_idle {v : Wiring} {key : String}
    (idle : ∀ s, v.slots.get? key = some s → s.due = none ∧ Unevaluated s) (n : Nat) :
    ∃ n', evaluateKey (v, n) key = .ok (v, n') := by
  unfold evaluateKey
  rcases found : v.slots.get? key with _ | s
  · exact ⟨n, rfl⟩
  · obtain ⟨due, unevaluated⟩ := idle s found
    simp only
    split
    · exact ⟨n, rfl⟩
    · rcases tree : s.tree with _ | f
      · exact ⟨n + 1, rfl⟩
      · rcases outcome : s.outcome with _ | o
        · rw [Slot.due_eq_some_iff.2 ⟨tree, outcome⟩] at due
          cases due
        · obtain ⟨code, rfl⟩ := unevaluated.pending o outcome
          exact ⟨n + 1, rfl⟩

/-- What a formula comes to is written down at its key, and nowhere else. -/
theorem evaluateKey_of_due {v : Wiring} {key : String} {s : Slot} {f : Formula} {x : Value}
    (found : v.slots.get? key = some s) (formula : s.isFormula = true) (due : s.due = some f)
    (came : f.outcome v.read = .ok x) (n : Nat) :
    ∃ v' n', evaluateKey (v, n) key = .ok (v', n') ∧ v'.graph = v.graph ∧ v'.flagged = v.flagged ∧
      v'.slots = (v.setOutcome key (verdict x)).slots := by
  obtain ⟨tree, open'⟩ := Slot.due_eq_some_iff.1 due
  have step : evaluateKey (v, n) key = evaluateFormula (v, n) key f := by
    simp [evaluateKey, found, formula, tree, open']
  rw [step]
  unfold evaluateFormula
  rw [came]
  cases x with
  | error code =>
    refine ⟨_, n + 1, rfl, rfl, ?_, rfl⟩
    exact flagged_plain (by simp [Note.Plain])
  | _ => exact ⟨_, n, rfl, rfl, rfl, rfl⟩

/-! ## The run -/

/-- Of the wiring `w` the keys in `done` are evaluated: their formulas come to what is written down
for them, and all else is as it was. -/
structure Settled (w : Wiring) (done : List String) (v : Wiring) : Prop where
  graph : v.graph = w.graph
  flagged : v.flagged = w.flagged
  closed : ∀ key ∈ done, ∀ d ∈ w.graph.dependencies key, d ∈ done
  untouched : ∀ key, key ∉ done → v.slots.get? key = w.slots.get? key
  kept : ∀ key, (∀ s, w.slots.get? key = some s → s.due = none) →
    v.slots.get? key = w.slots.get? key
  settled : ∀ key ∈ done, ∀ s f, w.slots.get? key = some s → s.due = some f →
    ∃ x, f.outcome v.read = .ok x ∧ Shown x ∧ v.slots.get? key = some (s.settle (verdict x))

theorem settled_start (w : Wiring) : Settled w [] w where
  graph := rfl
  flagged := rfl
  closed _ h := by cases h
  untouched _ _ := rfl
  kept _ _ := rfl
  settled _ h := by cases h

theorem read_congr {v v' : Wiring} {key : String}
    (node : v.graph.contains key = v'.graph.contains key)
    (slot : v.slots.get? key = v'.slots.get? key) : v.read key = v'.read key := by
  unfold read
  rw [node, slot]

theorem Settled.read_held {w v : Wiring} {done : List String} (ready : w.Ready)
    (inv : Settled w done v) {key : String} (node : key ∈ w.graph.keys) :
    ∃ x, v.read key = .ok x ∧ Held x := by
  have contains : v.graph.contains key = true := inv.graph ▸ (w.graph.mem_keys_iff key).1 node
  refine ⟨_, by rw [read, if_pos contains], ?_⟩
  rcases found : v.slots.get? key with _ | s
  · exact held_zero
  · change Held (slotValue s)
    have old : v.slots.get? key = w.slots.get? key → Held (slotValue s) := fun same =>
      (ready.slots key s (same ▸ found)).2.held
    by_cases member : key ∈ done
    · rcases w.due_or_idle key with ⟨s', f, found', due⟩ | idle
      · obtain ⟨x, _, shown, new⟩ := inv.settled key member s' f found' due
        rw [found, Option.some.injEq] at new
        exact new ▸ held_slotValue_settle shown s'
      · exact old (inv.kept key idle)
    · exact old (inv.untouched key member)

/-- What the formula at an evaluated key reads is evaluated too, so it comes to the same as before
when another key changes. -/
theorem Ready.outcome_eq {w v v' : Wiring} {done : List String} (ready : w.Ready)
    (graph : v'.graph = v.graph) {key : String}
    (others : ∀ k ∈ done, v'.slots.get? k = v.slots.get? k)
    (read : ∀ d ∈ w.graph.dependencies key, d ∈ done) {s : Slot} {f : Formula}
    (found : w.slots.get? key = some s) (due : s.due = some f) :
    f.outcome v'.read = f.outcome v.read := by
  refine outcome_congr fun r hr => read_congr (by rw [graph]) (others r (read r ?_))
  exact (ready.consistent.mirror r key).1 ((ready.reads key s f found due).2 r hr)

theorem Settled.closed_snoc {w v : Wiring} {done : List String} (inv : Settled w done v)
    {key : String} (read : ∀ d ∈ w.graph.dependencies key, d ∈ done) :
    ∀ k ∈ done ++ [key], ∀ d ∈ w.graph.dependencies k, d ∈ done ++ [key] := by
  intro k hk d hd
  rcases List.mem_append.1 hk with old | new
  · exact List.mem_append_left _ (inv.closed k old d hd)
  · exact List.mem_append_left _ (read d (List.mem_singleton.1 new ▸ hd))

theorem Settled.step_idle {w v : Wiring} {done : List String} (ready : w.Ready)
    (inv : Settled w done v) {key : String} (fresh : key ∉ done)
    (read : ∀ d ∈ w.graph.dependencies key, d ∈ done)
    (idle : ∀ s, w.slots.get? key = some s → s.due = none) (n : Nat) :
    ∃ v' n', evaluateKey (v, n) key = .ok (v', n') ∧ Settled w (done ++ [key]) v' := by
  have here := inv.untouched key fresh
  have still : ∀ s, v.slots.get? key = some s → s.due = none ∧ Unevaluated s := fun s found =>
    ⟨idle s (here ▸ found), (ready.slots key s (here ▸ found)).2⟩
  obtain ⟨n', ran⟩ := evaluateKey_of_idle still n
  refine ⟨v, n', ran, inv.graph, inv.flagged, inv.closed_snoc read, ?_, inv.kept, ?_⟩
  · exact fun k hk => inv.untouched k fun h => hk (List.mem_append_left _ h)
  · intro k hk s f found due
    rcases List.mem_append.1 hk with old | new
    · exact inv.settled k old s f found due
    · rw [idle s (List.mem_singleton.1 new ▸ found)] at due
      cases due

/-- A key with a formula is evaluated after the keys that it reads. -/
theorem Settled.step_due {w v : Wiring} {done : List String} (ready : w.Ready)
    (inv : Settled w done v) {key : String} (fresh : key ∉ done)
    (read : ∀ d ∈ w.graph.dependencies key, d ∈ done) {s : Slot} {f : Formula}
    (found : w.slots.get? key = some s) (due : s.due = some f) (n : Nat) :
    ∃ v' n', evaluateKey (v, n) key = .ok (v', n') ∧ Settled w (done ++ [key]) v' := by
  have here := inv.untouched key fresh
  obtain ⟨tree, _⟩ := Slot.due_eq_some_iff.1 due
  have formula := (ready.slots key s found).2.formula (by rw [tree]; rfl)
  obtain ⟨⟨text, limit, parsed⟩, edges⟩ := ready.reads key s f found due
  obtain ⟨x, came, shown⟩ := outcome_of_parse parsed fun r hr =>
    inv.read_held ready (edges r hr).source_mem
  obtain ⟨v', n', ran, graph, flagged, slots⟩ :=
    evaluateKey_of_due (here.trans found) formula due came n
  have self : v'.slots.get? key = some (s.settle (verdict x)) := by
    rw [slots, get?_setOutcome, if_pos rfl, here, found]
    rfl
  have other : ∀ k, k ≠ key → v'.slots.get? k = v.slots.get? k := by
    intro k apart
    rw [slots, get?_setOutcome, if_neg apart]
  have others : ∀ k ∈ done, v'.slots.get? k = v.slots.get? k := fun k hk =>
    other k fun same => fresh (same ▸ hk)
  refine ⟨v', n', ran, graph.trans inv.graph, flagged.trans inv.flagged, inv.closed_snoc read,
    ?_, ?_, ?_⟩
  · intro k hk
    rw [other k fun same => hk (by simp [same])]
    exact inv.untouched k fun h => hk (List.mem_append_left _ h)
  · intro k idle
    rw [other k ?_, inv.kept k idle]
    rintro rfl
    rw [idle s found] at due
    cases due
  · intro k hk s' g found' due'
    rcases List.mem_append.1 hk with old | new
    · rw [ready.outcome_eq graph others (inv.closed k old) found' due', others k old]
      exact inv.settled k old s' g found' due'
    · obtain rfl := List.mem_singleton.1 new
      rw [ready.outcome_eq graph others read found' due']
      cases found.symm.trans found'
      cases due.symm.trans due'
      exact ⟨x, came, shown, self⟩

theorem Settled.step {w v : Wiring} {done : List String} (ready : w.Ready)
    (inv : Settled w done v) {key : String} (fresh : key ∉ done)
    (read : ∀ d ∈ w.graph.dependencies key, d ∈ done) (n : Nat) :
    ∃ v' n', evaluateKey (v, n) key = .ok (v', n') ∧ Settled w (done ++ [key]) v' := by
  rcases w.due_or_idle key with ⟨s, f, found, due⟩ | idle
  · exact inv.step_due ready fresh read found due n
  · exact inv.step_idle ready fresh read idle n

/-- In an order of the graph the run comes to its end, and every key is settled then. -/
theorem Ready.run {w : Wiring} (ready : w.Ready) {order : List String}
    (isOrder : w.graph.IsOrder order) :
    ∃ p, order.foldlM evaluateKey (w, 0) = .ok p ∧ Settled w order p.1 := by
  apply exists_foldlM (fun done (p : Progress) => Settled w done p.1) (settled_start w)
  intro done key rest whole p inv
  have nodup := isOrder.nodup
  have fresh : key ∉ done := by
    rw [whole] at nodup
    exact fun h => (List.nodup_append.1 nodup).2.2 key h key (List.mem_cons_self ..) rfl
  obtain ⟨v', n', ran, inv'⟩ := inv.step ready fresh (isOrder.ascends done key rest whole) p.2
  exact ⟨(v', n'), ran, inv'⟩

theorem Ready.evaluate {w : Wiring} (ready : w.Ready) :
    ∃ order p, w.graph.IsOrder order ∧ w.evaluate = .ok p ∧ Settled w order p.1 := by
  obtain ⟨order, sorted, isOrder⟩ := Graph.order_spec ready.consistent ready.acyclic
  obtain ⟨p, ran, settled⟩ := ready.run isOrder
  refine ⟨order, p, isOrder, ?_, settled⟩
  unfold Wiring.evaluate
  rw [sorted]
  exact ran

/-! ## One end only -/

/-- The slots at a key are alike, or there is none in either wiring. -/
def AlikeAt (w u : Wiring) (key : String) : Prop :=
  Option.Rel Slot.Alike (w.slots.get? key) (u.slots.get? key)

theorem alikeAt_of_eq {w u : Wiring} {key : String}
    (same : w.slots.get? key = u.slots.get? key) : w.AlikeAt u key := by
  unfold AlikeAt
  rw [same]
  cases u.slots.get? key with
  | none => exact .none
  | some s => exact .some (.refl s)

theorem AlikeAt.cases {w u : Wiring} {key : String} (alike : w.AlikeAt u key) :
    w.slots.get? key = none ∧ u.slots.get? key = none ∨
      ∃ s s', w.slots.get? key = some s ∧ u.slots.get? key = some s' ∧ s.Alike s' :=
  cases_of_rel alike

theorem AlikeAt.due {w u : Wiring} {key : String} (alike : w.AlikeAt u key) {s : Slot}
    {f : Formula} (found : w.slots.get? key = some s) (due : s.due = some f) :
    ∃ s' g, u.slots.get? key = some s' ∧ s'.due = some g ∧ f.Alike g := by
  rcases alike.cases with ⟨none, _⟩ | ⟨_, s', here, there, alike⟩
  · cases none.symm.trans found
  · cases here.symm.trans found
    rcases cases_of_rel alike.due with ⟨idle, _⟩ | ⟨_, g, due₁, due₂, formulas⟩
    · cases idle.symm.trans due
    · cases due₁.symm.trans due
      exact ⟨s', g, there, due₂, formulas⟩

theorem AlikeAt.idle {w u : Wiring} {key : String} (alike : w.AlikeAt u key)
    (still : ∀ s, w.slots.get? key = some s → s.due = none) :
    ∀ s, u.slots.get? key = some s → s.due = none := by
  intro s' found'
  rcases alike.cases with ⟨_, none⟩ | ⟨s, _, here, there, alike⟩
  · cases none.symm.trans found'
  · cases there.symm.trans found'
    rcases cases_of_rel alike.due with ⟨_, idle⟩ | ⟨f, _, due, _⟩
    · exact idle
    · cases (still s here).symm.trans due

/-- At the key one change of both slots, or none, leads from the first two wirings to the others. -/
def ChangedAlike (w u v v' : Wiring) (key : String) : Prop :=
  ∃ o, v.slots.get? key = (w.slots.get? key).map (·.change o) ∧
    v'.slots.get? key = (u.slots.get? key).map (·.change o)

theorem ChangedAlike.value_eq {w u v v' : Wiring} {key : String} (h : w.ChangedAlike u v v' key)
    (alike : w.AlikeAt u key) :
    (v.slots.get? key).map slotValue = (v'.slots.get? key).map slotValue := by
  obtain ⟨o, left, right⟩ := h
  rw [left, right]
  rcases alike.cases with ⟨here, there⟩ | ⟨s, s', here, there, alike⟩
  · rw [here, there]
  · rw [here, there]
    exact congrArg some (alike.value_change o)

theorem read_congr_value {v v' : Wiring} {key : String}
    (node : v.graph.contains key = v'.graph.contains key)
    (value : (v.slots.get? key).map slotValue = (v'.slots.get? key).map slotValue) :
    v.read key = v'.read key := by
  unfold read
  rw [node, value]

theorem Settled.changedAlike_of_idle {w u v v' : Wiring} {order order' : List String}
    {key : String} (hv : Settled w order v) (hv' : Settled u order' v') (alike : w.AlikeAt u key)
    (still : ∀ s, w.slots.get? key = some s → s.due = none) : w.ChangedAlike u v v' key := by
  refine ⟨none, ?_, ?_⟩
  · exact (hv.kept key still).trans Option.map_id'.symm
  · exact (hv'.kept key (alike.idle still)).trans Option.map_id'.symm

/-- Where formulas that are alike see the same they come to the same. -/
theorem Settled.changedAlike_of_due {w u v v' : Wiring} {order order' : List String}
    {key : String} {s : Slot} {f : Formula} (hv : Settled w order v) (hv' : Settled u order' v')
    (member : key ∈ order) (member' : key ∈ order') (alike : w.AlikeAt u key)
    (found : w.slots.get? key = some s) (due : s.due = some f)
    (reads : ∀ r ∈ f.references, v.read r = v'.read r) : w.ChangedAlike u v v' key := by
  obtain ⟨s', g, found', due', formulas⟩ := alike.due found due
  obtain ⟨x, came, _, slot⟩ := hv.settled key member s f found due
  obtain ⟨x', came', _, slot'⟩ := hv'.settled key member' s' g found' due'
  rw [outcome_congr reads, formulas.outcome, came', Except.ok.injEq] at came
  refine ⟨some (verdict x), ?_, ?_⟩
  · rw [slot, found]
    rfl
  · rw [slot', found', came]
    rfl

/-- Two wirings with slots that are alike at some keys, and where the formulas at these keys see the
same at all others, have slots changed alike at these keys when they are evaluated, each in an
order of its own. -/
theorem Settled.alike_of_seen {w u : Wiring} (readyW : w.Ready) (readyU : u.Ready)
    {K : String → Prop} (same : ∀ k, K k → w.AlikeAt u k)
    {order order' : List String} (hw : w.graph.IsOrder order) (hu : u.graph.IsOrder order')
    {v v' : Wiring} (hv : Settled w order v) (hv' : Settled u order' v')
    (seen : ∀ k s f, K k → w.slots.get? k = some s → s.due = some f →
      ∀ r ∈ f.references, K r ∨ v.read r = v'.read r) :
    ∀ k, K k → w.ChangedAlike u v v' k := by
  -- By induction along the edges: what a formula reads is changed alike before it is.
  have nodes : ∀ k ∈ w.graph.keys, K k → w.ChangedAlike u v v' k := by
    refine readyW.acyclic.induction readyW.consistent fun k node ih hk => ?_
    rcases w.due_or_idle k with ⟨s, f, found, due⟩ | still
    · obtain ⟨s', g, found', due', alike⟩ := (same k hk).due found due
      have node' := (readyU.slots k s' found').1
      refine hv.changedAlike_of_due hv' (hw.perm.mem_iff.2 node) (hu.perm.mem_iff.2 node')
        (same k hk) found due fun r hr => ?_
      rcases seen k s f hk found due r hr with inside | equal
      · have edge := (readyW.reads k s f found due).2 r hr
        have edge' := (readyU.reads k s' g found' due').2 r (alike.references ▸ hr)
        have reads := (readyW.consistent.mirror r k).1 edge
        refine read_congr_value ?_ ((ih r reads inside).value_eq (same r inside))
        rw [hv.graph, hv'.graph, (Graph.mem_keys_iff _ _).1 edge.source_mem,
          (Graph.mem_keys_iff _ _).1 edge'.source_mem]
      · exact equal
    · exact hv.changedAlike_of_idle hv' (same k hk) still
  intro k hk
  by_cases node : k ∈ w.graph.keys
  · exact nodes k node hk
  · exact hv.changedAlike_of_idle hv' (same k hk) fun s found =>
      absurd (readyW.slots k s found).1 node

/-- Two wirings that agree on some keys, and where the formulas at these keys see the same at all
others, agree on these keys also when they are evaluated, each in an order of its own. -/
theorem Settled.agree_of_seen {w u : Wiring} (readyW : w.Ready) (readyU : u.Ready)
    {K : String → Prop} (same : ∀ k, K k → w.slots.get? k = u.slots.get? k)
    {order order' : List String} (hw : w.graph.IsOrder order) (hu : u.graph.IsOrder order')
    {v v' : Wiring} (hv : Settled w order v) (hv' : Settled u order' v')
    (seen : ∀ k s f, K k → w.slots.get? k = some s → s.due = some f →
      ∀ r ∈ f.references, K r ∨ v.read r = v'.read r) :
    ∀ k, K k → v.slots.get? k = v'.slots.get? k := by
  intro k hk
  obtain ⟨o, left, right⟩ := Settled.alike_of_seen readyW readyU
    (fun k hk => alikeAt_of_eq (same k hk)) hw hu hv hv' seen k hk
  rw [left, right, same k hk]

/-- Two wirings that agree on keys whose formulas name no other keys agree on them also when they
are evaluated, each in an order of its own. -/
theorem Settled.agree {w u : Wiring} (readyW : w.Ready) (readyU : u.Ready) {K : String → Prop}
    (same : ∀ k, K k → w.slots.get? k = u.slots.get? k)
    (closed : ∀ k s f, K k → w.slots.get? k = some s → s.due = some f → ∀ r ∈ f.references, K r)
    {order order' : List String} (hw : w.graph.IsOrder order) (hu : u.graph.IsOrder order')
    {v v' : Wiring} (hv : Settled w order v) (hv' : Settled u order' v') :
    ∀ k, K k → v.slots.get? k = v'.slots.get? k :=
  Settled.agree_of_seen readyW readyU same hw hu hv hv' fun k s f hk found due r hr =>
    Or.inl (closed k s f hk found due r hr)

/-- In whatever order a wired table is evaluated, each formula after those that it reads, the run
comes to its end, every formula that is not flagged then comes to what is written down for it,
and what is written down is the same in every order. -/
theorem evaluate_reaches_the_only_end {settings : Settings} {bounds : Bounds}
    {cells : Roster Cell} {w : Wiring} (wired : ofCells settings bounds cells = .ok w) :
    ∃ v errors, w.evaluate = .ok (v, errors) ∧
      (∀ key slot f, w.slots.get? key = some slot → slot.tree = some f → slot.outcome = none →
        ∃ x, f.outcome v.read = .ok x ∧
          v.slots.get? key = some { slot with outcome := some (verdict x) }) ∧
      ∀ order, w.graph.IsOrder order →
        ∃ v' errors', order.foldlM evaluateKey (w, 0) = .ok (v', errors') ∧
          ∀ key, v'.slots.get? key = v.slots.get? key := by
  have ready := (complete_of_run wired).ready
  obtain ⟨order, ⟨v, errors⟩, isOrder, ran, settled⟩ := ready.evaluate
  refine ⟨v, errors, ran, ?_, ?_⟩
  · intro key slot f found tree clear
    have node := isOrder.perm.mem_iff.2 (ready.slots key slot found).1
    have due := Slot.due_eq_some_iff.2 ⟨tree, clear⟩
    obtain ⟨x, came, _, written⟩ := settled.settled key node slot f found due
    exact ⟨x, came, written⟩
  · intro order' isOrder'
    obtain ⟨⟨v', errors'⟩, ran', settled'⟩ := ready.run isOrder'
    refine ⟨v', errors', ran', fun key => ?_⟩
    exact Settled.agree ready ready (fun _ _ => rfl) (fun _ _ _ _ _ _ _ _ => trivial) isOrder'
      isOrder settled' settled key trivial

/-- The sum at `A1` comes to what is written down for it, beside a cell that reads itself. -/
theorem evaluate_reaches_the_only_end_of_a_sum :
    ∃ w v errors slot f x,
      ofCells .usual ⟨["A", "B", "C"], 1⟩ (.ofEntries [("A1", ⟨none, some "=B1+C1", none⟩),
        ("B1", ⟨some "2", none, none⟩), ("C1", ⟨none, some "=C1", none⟩)]) = .ok w ∧
      w.evaluate = .ok (v, errors) ∧ w.slots.get? "A1" = some slot ∧ slot.tree = some f ∧
      slot.outcome = none ∧ f.outcome v.read = .ok x ∧
      v.slots.get? "A1" = some { slot with outcome := some (verdict x) } := by
  have pending : (((ofCells .usual ⟨["A", "B", "C"], 1⟩
      (.ofEntries [("A1", ⟨none, some "=B1+C1", none⟩), ("B1", ⟨some "2", none, none⟩),
        ("C1", ⟨none, some "=C1", none⟩)])).toOption.bind
      fun w => w.slots.get? "A1").bind Slot.due).isSome = true := by
    decide +kernel
  obtain ⟨f, isDue⟩ := Option.isSome_iff_exists.1 pending
  obtain ⟨slot, hs, due⟩ := Option.bind_eq_some_iff.1 isDue
  obtain ⟨w, hw, found⟩ := Option.bind_eq_some_iff.1 hs
  have wired := eq_ok_of_toOption hw
  obtain ⟨tree, clear⟩ := Slot.due_eq_some_iff.1 due
  obtain ⟨v, errors, ran, came, _⟩ := evaluate_reaches_the_only_end wired
  obtain ⟨x, outcome, written⟩ := came "A1" slot f found tree clear
  exact ⟨w, v, errors, slot, f, x, wired, ran, found, tree, clear, outcome, written⟩

end Wiring

end Worksheet
