-- The steps of a wiring, case by case. A reference closes a loop, or is an edge, or is off the
-- grid; an entry repeats a key, or gets a slot and has its references wired.
import Worksheet.Proofs.Formula.Results
import Worksheet.Proofs.Graph.Search
import Worksheet.Proofs.Runs
import Worksheet.Wiring

namespace Worksheet

open Worksheet.Text (upper)

/-! ## What entries say -/

def Cell.parsed? (limit : Formula.Limit) (c : Cell) : Option Formula :=
  c.formula?.bind fun text => (Formula.parse text limit).toOption

/-- The keys that the formula of a cell names; none where there is no formula to be read. -/
def Cell.references (limit : Formula.Limit) (c : Cell) : List String :=
  (c.parsed? limit).elim [] Formula.references

theorem Cell.mem_references_iff {limit : Formula.Limit} {c : Cell} {reference : String} :
    reference ∈ c.references limit ↔ ∃ text f, c.formula? = some text ∧
      Formula.parse text limit = .ok f ∧ reference ∈ f.references := by
  unfold references parsed?
  constructor
  · intro h
    rcases written : c.formula? with _ | text <;> rw [written] at h
    · cases h
    · rcases parsed : Formula.parse text limit with cause | f
      · simp [parsed, Except.toOption] at h
      · exact ⟨text, f, rfl, parsed, by simpa [parsed, Except.toOption] using h⟩
  · rintro ⟨text, f, written, parsed, member⟩
    simpa [written, parsed, Except.toOption] using member

/-- The entry that a key goes by: the first one that has it. -/
def first? (entries : List (String × Cell)) (key : String) : Option (String × Cell) :=
  entries.find? fun e => upper e.1 = key

/-- The formula at a key names the key `reference`. -/
def Refers (limit : Formula.Limit) (entries : List (String × Cell))
    (key reference : String) : Prop :=
  ∃ e, first? entries key = some e ∧ reference ∈ e.2.references limit

theorem refers_iff {limit : Formula.Limit} {entries : List (String × Cell)}
    {key reference text : String}
    {e : String × Cell} {f : Formula} (first : first? entries key = some e)
    (written : e.2.formula? = some text) (parsed : Formula.parse text limit = .ok f) :
    Refers limit entries key reference ↔ reference ∈ f.references := by
  simp [Refers, first, Cell.mem_references_iff, written, parsed]

theorem not_refers_of_literal {limit : Formula.Limit} {entries : List (String × Cell)}
    {key : String}
    {e : String × Cell} (first : first? entries key = some e) (literal : e.2.formula? = none)
    (reference : String) : ¬ Refers limit entries key reference := by
  simp [Refers, first, Cell.mem_references_iff, literal]

theorem mem_of_first? {entries : List (String × Cell)} {key : String} {e : String × Cell}
    (h : first? entries key = some e) : e ∈ entries := List.mem_of_find?_eq_some h

theorem upper_of_first? {entries : List (String × Cell)} {key : String} {e : String × Cell}
    (h : first? entries key = some e) : upper e.1 = key := by
  simpa using List.find?_some h

theorem exists_first? {entries : List (String × Cell)} {e : String × Cell} (h : e ∈ entries) :
    ∃ found, first? entries (upper e.1) = some found := by
  apply Option.isSome_iff_exists.1
  unfold first?
  rw [List.find?_isSome]
  exact ⟨e, h, by simp⟩

theorem first?_eq_none_iff {entries : List (String × Cell)} {key : String} :
    first? entries key = none ↔ ∀ e ∈ entries, upper e.1 ≠ key := by
  simp [first?]

theorem first?_middle_iff {before after : List (String × Cell)} {e : String × Cell}
    (fresh : e ∉ before) :
    first? (before ++ e :: after) (upper e.1) = some e ↔ first? before (upper e.1) = none := by
  rw [first?, List.find?_append, ← first?]
  rcases found : first? before (upper e.1) with _ | e'
  · simp
  · have other : e' ≠ e := by
      rintro rfl
      exact fresh (mem_of_first? found)
    simpa using other

theorem first?_snoc (entries : List (String × Cell)) (e : String × Cell) (key : String) :
    first? (entries ++ [e]) key =
      (first? entries key).or (if upper e.1 = key then some e else none) := by
  unfold first?
  rw [List.find?_append]
  by_cases same : upper e.1 = key <;> simp [same]

theorem first?_snoc_self {entries : List (String × Cell)} {e : String × Cell}
    (fresh : first? entries (upper e.1) = none) :
    first? (entries ++ [e]) (upper e.1) = some e := by
  simp [first?_snoc, fresh]

theorem refers_snoc_of_some {limit : Formula.Limit} {entries : List (String × Cell)}
    {e : String × Cell}
    {key reference : String} (known : first? entries key ≠ none) :
    Refers limit (entries ++ [e]) key reference ↔ Refers limit entries key reference := by
  obtain ⟨found, hf⟩ := Option.ne_none_iff_exists'.1 known
  unfold Refers
  rw [first?_snoc, hf]
  rfl

theorem refers_snoc_of_ne {limit : Formula.Limit} {entries : List (String × Cell)}
    {e : String × Cell}
    {key reference : String} (other : upper e.1 ≠ key) :
    Refers limit (entries ++ [e]) key reference ↔ Refers limit entries key reference := by
  unfold Refers
  rw [first?_snoc, if_neg other, Option.or_none]

theorem first?_append {entries : List (String × Cell)} {key : String} {e : String × Cell}
    (first : first? entries key = some e) (more : List (String × Cell)) :
    first? (entries ++ more) key = some e := by
  rw [first?, List.find?_append, ← first?, first]
  rfl

theorem Refers.append {limit : Formula.Limit} {entries : List (String × Cell)}
    {key reference : String}
    (h : Refers limit entries key reference) (more : List (String × Cell)) :
    Refers limit (entries ++ more) key reference := by
  obtain ⟨e, first, member⟩ := h
  exact ⟨e, first?_append first more, member⟩

theorem Refers.snoc {limit : Formula.Limit} {entries : List (String × Cell)}
    {key reference : String}
    (h : Refers limit entries key reference) (e : String × Cell) :
    Refers limit (entries ++ [e]) key reference := h.append [e]

/-! ## Slots -/

/-- The slot of an entry when it is put in. What cannot be read has an error from the start. -/
def Slot.start (limit : Formula.Limit) (e : String × Cell) : Slot where
  entry := e.1
  cell := e.2
  tree := e.2.parsed? limit
  outcome := if e.2.formula?.isSome ∧ e.2.parsed? limit = none then some (.error .formula) else none

theorem Slot.start_of_literal {limit : Formula.Limit} {e : String × Cell}
    (h : e.2.formula? = none) :
    Slot.start limit e = ⟨e.1, e.2, none, none⟩ := by
  simp [start, Cell.parsed?, h]

theorem Slot.start_of_error {limit : Formula.Limit} {e : String × Cell} {text : String}
    {cause : ParseError}
    (h : e.2.formula? = some text) (parsed : Formula.parse text limit = .error cause) :
    Slot.start limit e = ⟨e.1, e.2, none, some (.error .formula)⟩ := by
  simp [start, Cell.parsed?, h, parsed, Except.toOption]

theorem Slot.start_of_ok {limit : Formula.Limit} {e : String × Cell} {text : String} {f : Formula}
    (h : e.2.formula? = some text) (parsed : Formula.parse text limit = .ok f) :
    Slot.start limit e = ⟨e.1, e.2, some f, none⟩ := by
  simp [start, Cell.parsed?, h, parsed, Except.toOption]

def Slot.settle (s : Slot) (o : Outcome) : Slot := { s with outcome := some o }

/-! ## Notes -/

/-- The keys that a note tells of a bad reference at. -/
def Note.flagged : Note → List String
  | .closesLoop _ _ path => path
  | .offGrid key _ => [key]
  | _ => []

/-- A note that tells of no bad reference. -/
def Note.Plain : Note → Prop
  | .closesLoop _ _ _ => False
  | .offGrid _ _ => False
  | _ => True

theorem Note.Plain.flagged_eq_nil {n : Note} (h : n.Plain) : n.flagged = [] := by
  cases n with
  | closesLoop key reference path => exact absurd h id
  | offGrid key reference => exact absurd h id
  | _ => rfl

namespace Wiring

/-- The keys where a bad reference is flagged, as the notes name them. -/
def flagged (w : Wiring) : List String := w.notes.flatMap Note.flagged

/-! ## Flags -/

theorem get?_setOutcome (w : Wiring) (key : String) (o : Outcome) (k : String) :
    (w.setOutcome key o).slots.get? k =
      if k = key then (w.slots.get? k).map (Slot.settle · o) else w.slots.get? k := by
  split
  · rename_i same
    subst same
    exact w.slots.get?_modify_self k _
  · rename_i other
    exact w.slots.get?_modify_of_ne other _

/-- The wiring with a note, and with a bad reference flagged where the note tells of it. -/
def tell (w : Wiring) (n : Note) : Wiring := (n.flagged.foldl flag w).note n

/-- Along a path every slot gets the flag, and nothing else changes. -/
theorem flags_spec (path : List String) (w : Wiring) :
    (path.foldl flag w).graph = w.graph ∧ (path.foldl flag w).notes = w.notes ∧
      ∀ k, (path.foldl flag w).slots.get? k =
        if k ∈ path then (w.slots.get? k).map (Slot.settle · (.error .reference))
        else w.slots.get? k := by
  induction path generalizing w with
  | nil => exact ⟨rfl, rfl, by simp⟩
  | cons key rest ih =>
    obtain ⟨graph, notes, slots⟩ := ih (w.flag key)
    refine ⟨graph, notes, fun k => ?_⟩
    rw [List.foldl_cons, slots, flag, get?_setOutcome]
    by_cases same : k = key
    · subst same
      by_cases again : k ∈ rest <;> simp [again, Function.comp_def, Slot.settle]
    · by_cases later : k ∈ rest <;> simp [same, later]

@[simp]
theorem graph_tell (w : Wiring) (n : Note) : (w.tell n).graph = w.graph :=
  (flags_spec n.flagged w).1

@[simp]
theorem notes_tell (w : Wiring) (n : Note) : (w.tell n).notes = w.notes ++ [n] :=
  congrArg (· ++ [n]) (flags_spec n.flagged w).2.1

@[simp]
theorem flagged_tell (w : Wiring) (n : Note) : (w.tell n).flagged = w.flagged ++ n.flagged := by
  simp [flagged]

theorem get?_tell (w : Wiring) (n : Note) (k : String) :
    (w.tell n).slots.get? k =
      if k ∈ n.flagged then (w.slots.get? k).map (Slot.settle · (.error .reference))
      else w.slots.get? k :=
  (flags_spec n.flagged w).2.2 k

theorem contains_tell (w : Wiring) (n : Note) (key : String) :
    (w.tell n).slots.contains key = w.slots.contains key := by
  unfold Roster.contains
  rw [get?_tell]
  split
  · exact Option.isSome_map
  · rfl

/-! ## One reference -/

theorem refer_of_loop {bounds : Bounds} {key reference : String} {w : Wiring} {path : List String}
    (found : w.graph.cyclePath reference key = .ok (some path)) :
    refer bounds key w reference = .ok (w.tell (.closesLoop key reference path)) := by
  unfold refer
  rw [found]
  rfl

theorem refer_of_edge {bounds : Bounds} {key reference : String} {w : Wiring} {g : Graph}
    (none : w.graph.cyclePath reference key = .ok none)
    (inside : bounds.contains reference = .ok true)
    (added : (w.graph.ensure reference).addEdge reference key = .ok g) :
    refer bounds key w reference = .ok { w with graph := g } := by
  unfold refer
  rw [none]
  simp only [bind, Except.bind, inside, added, if_true]

theorem refer_of_stray {bounds : Bounds} {key reference : String} {w : Wiring}
    (none : w.graph.cyclePath reference key = .ok none)
    (outside : bounds.contains reference = .ok false) :
    refer bounds key w reference = .ok (w.tell (.offGrid key reference)) := by
  unfold refer
  rw [none]
  simp only [bind, Except.bind, outside]
  rfl

/-- What wiring a reference does: it closes a loop, or it is an edge, or it is off the grid. -/
theorem refer_cases {bounds : Bounds} {key reference : String} {w w' : Wiring}
    (con : w.graph.Consistent) (h : refer bounds key w reference = .ok w') :
    (∃ path, w.graph.cyclePath reference key = .ok (some path) ∧
      w.graph.IsPath key reference path ∧ w' = w.tell (.closesLoop key reference path)) ∨
    (w.graph.cyclePath reference key = .ok none ∧ ¬ w.graph.Reaches key reference ∧
      bounds.contains reference = .ok true ∧
      ∃ g, (w.graph.ensure reference).addEdge reference key = .ok g ∧
        w' = { w with graph := g }) ∨
    (w.graph.cyclePath reference key = .ok none ∧ bounds.contains reference = .ok false ∧
      w' = w.tell (.offGrid key reference)) := by
  rcases w.graph.cyclePath_spec con reference key with ⟨path, found, isPath⟩ | ⟨none, apart⟩
  · rw [refer_of_loop found] at h
    cases h
    exact Or.inl ⟨path, found, isPath, rfl⟩
  · have steps := h
    unfold refer at steps
    rw [none] at steps
    obtain ⟨_, same, steps⟩ := exists_of_bind steps
    cases same
    obtain ⟨inside, tested, steps⟩ := exists_of_bind steps
    cases inside with
    | true =>
      obtain ⟨g, added, _⟩ := exists_of_bind steps
      rw [refer_of_edge none tested added] at h
      cases h
      exact Or.inr (Or.inl ⟨none, apart, tested, g, added, rfl⟩)
    | false =>
      rw [refer_of_stray none tested] at h
      cases h
      exact Or.inr (Or.inr ⟨none, tested, rfl⟩)

/-- The reference can be wired: it closes a loop, or it can be looked up on the grid. -/
def Allows (bounds : Bounds) (key : String) (w : Wiring) (reference : String) : Prop :=
  w.graph.Reaches key reference ∨ ∃ inside, bounds.contains reference = .ok inside

theorem allows_of_refer {bounds : Bounds} {key reference : String} {w w' : Wiring}
    (con : w.graph.Consistent) (ran : refer bounds key w reference = .ok w') :
    Allows bounds key w reference := by
  rcases refer_cases con ran with ⟨path, _, isPath, _⟩ | ⟨_, _, inside, _⟩ | ⟨_, outside, _⟩
  · exact Or.inl isPath.reaches
  · exact Or.inr ⟨true, inside⟩
  · exact Or.inr ⟨false, outside⟩

theorem Allows.exists_refer {bounds : Bounds} {key reference : String} {w : Wiring}
    (allows : Allows bounds key w reference) (con : w.graph.Consistent)
    (node : key ∈ w.graph.keys) : ∃ w', refer bounds key w reference = .ok w' := by
  rcases w.graph.cyclePath_spec con reference key with ⟨path, found, _⟩ | ⟨none, apart⟩
  · exact ⟨_, refer_of_loop found⟩
  · obtain ⟨inside, tested⟩ := allows.resolve_left apart
    cases inside with
    | true =>
      have source : reference ∈ (w.graph.ensure reference).keys := by simp
      have target : key ∈ (w.graph.ensure reference).keys := by simp [node]
      obtain ⟨g, added, _⟩ := Graph.addEdge_spec (con.ensure reference) source target
      exact ⟨_, refer_of_edge none tested added⟩
    | false => exact ⟨_, refer_of_stray none tested⟩

/-! ## One entry -/

/-- What wiring an entry does: where its key is there, nothing but a note; or else its slot is put
in, and its references are wired. The notes before those of the references are plain. -/
theorem enter_eq (settings : Settings) (bounds : Bounds) (e : String × Cell) :
    ∃ repeats extra : List Note, (∀ n ∈ repeats, n.Plain) ∧ (∀ n ∈ extra, n.Plain) ∧
      ∀ w, enter settings bounds w e =
        if w.slots.contains (upper e.1) then
          .ok ⟨w.graph.ensure (upper e.1), w.slots, w.notes ++ repeats⟩
        else
          (e.2.references settings.limit).foldlM (refer bounds (upper e.1))
            ⟨w.graph.ensure (upper e.1),
              w.slots.put (upper e.1) (Slot.start settings.limit e), w.notes ++ extra⟩ := by
  obtain ⟨entry, cell⟩ := e
  refine ⟨[.repeatedKey entry (upper entry)], ?_⟩
  rcases written : cell.formula? with _ | text
  · have slot : Slot.start settings.limit (entry, cell) = _ := Slot.start_of_literal written
    have none : cell.parsed? settings.limit = none := congrArg Slot.tree slot
    refine ⟨[], by simp [Note.Plain], by simp, fun w => ?_⟩
    simp only [enter, written]
    rw [slot, Cell.references, none, List.append_nil]
    rfl
  · rcases parsed : Formula.parse text settings.limit with cause | f
    · have slot : Slot.start settings.limit (entry, cell) = _ := Slot.start_of_error written parsed
      have none : cell.parsed? settings.limit = none := congrArg Slot.tree slot
      refine ⟨[.unreadable (upper entry) text cause], by simp [Note.Plain], by simp [Note.Plain],
        fun w => ?_⟩
      simp only [enter, written, enterFormula, parsed]
      rw [slot, Cell.references, none]
      rfl
    · have slot : Slot.start settings.limit (entry, cell) = _ := Slot.start_of_ok written parsed
      have tree : cell.parsed? settings.limit = some f := congrArg Slot.tree slot
      refine ⟨if settings.outlines then [.outline (upper entry) f.dump] else [],
        by simp [Note.Plain], by split <;> simp [Note.Plain], fun w => ?_⟩
      simp only [enter, written, enterFormula, parsed]
      rw [slot, Cell.references, tree]
      cases settings.outlines
      · simp only [Bool.false_eq_true, if_false, List.append_nil]
        rfl
      · rfl

end Wiring

end Worksheet
