-- An answer that is posted again. What is answered is checked to the same table but for the fields
-- of columns that were sent as null, and what was recalculated once comes out as it went in. So the
-- table of an answer, posted again, is answered the same.
import Worksheet.Proofs.Recalculation.Inputs
import Worksheet.Service

namespace Worksheet

/-! ## Entries and rosters -/

namespace Entries

variable {α : Type}

theorem put_of_fresh {es : List (String × α)} {key : String} (fresh : key ∉ keys es) (a : α) :
    put es key a = es ++ [(key, a)] := by
  induction es with
  | nil => rfl
  | cons e rest ih =>
    simp only [keys, List.map_cons, List.mem_cons, not_or] at fresh
    rw [put, if_neg (Ne.symm fresh.1), ih fresh.2, List.cons_append]

theorem mem_put {es : List (String × α)} {key : String} {a : α} {e : String × α}
    (member : e ∈ put es key a) : e = (key, a) ∨ e ∈ es := by
  induction es with
  | nil => exact Or.inl (List.mem_singleton.1 member)
  | cons first rest ih =>
    unfold put at member
    split at member
    · rcases List.mem_cons.1 member with here | later
      · exact Or.inl here
      · exact Or.inr (List.mem_cons_of_mem _ later)
    · rcases List.mem_cons.1 member with here | later
      · exact Or.inr (here ▸ List.mem_cons_self ..)
      · exact (ih later).imp_right (List.mem_cons_of_mem _)

end Entries

namespace Roster

variable {α : Type}

theorem entries_ofEntries {es : List (String × α)} (nodup : (Entries.keys es).Nodup) :
    (ofEntries es).entries = es := by
  have general : ∀ r : Roster α, (∀ k ∈ Entries.keys es, k ∉ r.keys) →
      (es.foldl (fun r e => r.put e.1 e.2) r).entries = r.entries ++ es := by
    induction es with
    | nil => intro r _; exact (List.append_nil _).symm
    | cons e rest ih =>
      intro r fresh
      simp only [Entries.keys, List.map_cons, List.nodup_cons] at nodup
      have new : e.1 ∉ r.keys := fresh e.1 (List.mem_cons_self ..)
      have grown : (r.put e.1 e.2).entries = r.entries ++ [e] := Entries.put_of_fresh new e.2
      rw [List.foldl_cons, ih nodup.2, grown, List.append_assoc]
      · rfl
      · intro k hk h
        rw [keys_put, if_neg new] at h
        rcases List.mem_append.1 h with old | here
        · exact fresh k (List.mem_cons_of_mem _ hk) old
        · exact nodup.1 (List.mem_singleton.1 here ▸ hk)
  exact general empty fun _ _ => List.not_mem_nil

theorem mem_ofEntries {es : List (String × α)} {e : String × α}
    (member : e ∈ (ofEntries es).entries) : e ∈ es := by
  have general : ∀ r : Roster α, e ∈ (es.foldl (fun r e => r.put e.1 e.2) r).entries →
      e ∈ r.entries ∨ e ∈ es := by
    clear member
    induction es with
    | nil => exact fun r h => Or.inl h
    | cons first rest ih =>
      intro r h
      rcases ih _ h with old | later
      · rcases Entries.mem_put old with rfl | before
        · exact Or.inr (List.mem_cons_self ..)
        · exact Or.inl before
      · exact Or.inr (List.mem_cons_of_mem _ later)
  exact (general empty member).resolve_left List.not_mem_nil

end Roster

/-! ## Checking what was checked -/

namespace Checked

variable {α β γ : Type}

theorem both_eq_ok {f : α → β → γ} {x : Checked α} {y : Checked β} {c : γ}
    (h : both f x y = .ok c) : ∃ a b, x = .ok a ∧ y = .ok b ∧ f a b = c := by
  rcases x with _ | a <;> rcases y with _ | b <;> cases h
  exact ⟨a, b, rfl, rfl, rfl⟩

theorem mem_entries {check : String → α → Checked β} {es : List (String × α)}
    {bs : List (String × β)} (checked : entries check es = .ok bs) {b : String × β}
    (member : b ∈ bs) : ∃ a, (b.1, a) ∈ es ∧ check b.1 a = .ok b.2 := by
  induction es generalizing bs with
  | nil => cases checked; cases member
  | cons e rest ih =>
    obtain ⟨first, later, here, others, rfl⟩ := both_eq_ok checked
    rcases List.mem_cons.1 member with rfl | old
    · exact ⟨e.2, List.mem_cons_self .., here⟩
    · obtain ⟨a, old, passed⟩ := ih others old
      exact ⟨a, List.mem_cons_of_mem _ old, passed⟩

theorem entries_map {check : String → γ → Checked β} {f : α → γ} {g : α → β}
    {es : List (String × α)} (each : ∀ e ∈ es, check e.1 (f e.2) = .ok (g e.2)) :
    entries check (es.map fun e => (e.1, f e.2)) = .ok (es.map fun e => (e.1, g e.2)) := by
  induction es with
  | nil => rfl
  | cons e rest ih =>
    have later := ih fun e' he => each e' (List.mem_cons_of_mem _ he)
    rw [List.map_cons, entries, each e (List.mem_cons_self ..), later]
    rfl

end Checked

section

variable {α β : Type} {name : String}

theorem exists_of_checkObject {check : List String → Json → Checked α} {j : Json} {r : Roster α}
    (checked : checkObject name check j = .ok r) {e : String × α} (member : e ∈ r.entries) :
    ∃ fields a, j = .object fields ∧ (e.1, a) ∈ fields ∧ check [name, e.1] a = .ok e.2 := by
  unfold checkObject at checked
  split at checked
  · rename_i fields
    rcases passed : Checked.entries (fun key => check [name, key]) fields with _ | bs <;>
      rw [passed] at checked <;> cases checked
    obtain ⟨a, present, here⟩ := Checked.mem_entries passed (Roster.mem_ofEntries member)
    exact ⟨fields, a, rfl, present, here⟩
  · cases checked

theorem checkObject_entries {check : List String → Json → Checked β} {f : α → Json} {g : α → β}
    {r : Roster α} (each : ∀ e ∈ r.entries, check [name, e.1] (f e.2) = .ok (g e.2)) :
    checkObject name check (.object (r.entries.map fun e => (e.1, f e.2))) = .ok (r.map g) := by
  have whole : Roster.ofEntries (r.map g).entries = r.map g :=
    Roster.ext_entries (Roster.entries_ofEntries (r.map g).nodup)
  rw [checkObject, Checked.entries_map each]
  exact congrArg Except.ok whole

end

/-! ## Finite values -/

namespace Json

mutual

/-- No number in the value is infinite or no number. -/
def isFinite : Json → Bool
  | .float x => x.isFinite
  | .array items => itemsFinite items
  | .object fields => fieldsFinite fields
  | _ => true

def itemsFinite : List Json → Bool
  | [] => true
  | j :: rest => j.isFinite && itemsFinite rest

def fieldsFinite : List (String × Json) → Bool
  | [] => true
  | (_, j) :: rest => j.isFinite && fieldsFinite rest

end

theorem fieldsFinite_iff {fields : List (String × Json)} :
    fieldsFinite fields = true ↔ ∀ e ∈ fields, e.2.isFinite = true := by
  induction fields with
  | nil => simp [fieldsFinite]
  | cons e rest ih =>
    obtain ⟨name, j⟩ := e
    simp [fieldsFinite, ih]

end Json

namespace Service

mutual

theorem answerValue_of_isFinite : ∀ {j : Json}, j.isFinite = true → answerValue j = j
  | .float x, h => by
    have finite : x.isFinite = true := h
    rw [answerValue, if_pos finite]
  | .array items, h => by rw [answerValue, answerItems_of_finite h]
  | .object fields, h => by rw [answerValue, answerFields_of_finite h]
  | .null, _ => rfl
  | .bool _, _ => rfl
  | .int _, _ => rfl
  | .text _, _ => rfl

theorem answerItems_of_finite : ∀ {items : List Json}, Json.itemsFinite items = true →
    answerItems items = items
  | [], _ => rfl
  | j :: rest, h => by
    obtain ⟨first, later⟩ := Bool.and_eq_true_iff.1 h
    rw [answerItems, answerValue_of_isFinite first, answerItems_of_finite later]

theorem answerFields_of_finite : ∀ {fields : List (String × Json)},
    Json.fieldsFinite fields = true → answerFields fields = fields
  | [], _ => rfl
  | (name, j) :: rest, h => by
    obtain ⟨first, later⟩ := Bool.and_eq_true_iff.1 h
    rw [answerFields, answerValue_of_isFinite first, answerFields_of_finite later]

end

/-! ## Columns and cells -/

/-- A column whose fields besides the title are finite, and none of them a second title. -/
structure Plain (c : Column) : Prop where
  untitled : ∀ e ∈ c.extras, e.1 ≠ "title"
  finite : Json.fieldsFinite c.extras = true

def sentFields (c : Column) : List (String × Json) := c.extras.filter fun e => !isAbsent e.2

/-- The column without the fields that were sent as null. -/
def sentColumn (c : Column) : Column := { c with extras := sentFields c }

variable {c : Column}

theorem plain_of_check {path : List String} {j : Json} (finite : j.isFinite = true)
    (checked : Column.check path j = .ok c) : Plain c := by
  unfold Column.check at checked
  split at checked
  · rename_i fields
    have extras : c.extras = fields.filter (·.1 ≠ "title") := by
      split at checked <;> cases checked <;> rfl
    rw [Json.isFinite, Json.fieldsFinite_iff] at finite
    refine ⟨fun e member => ?_, Json.fieldsFinite_iff.2 fun e member => ?_⟩ <;>
      rw [extras, List.mem_filter] at member
    · simpa using member.2
    · exact finite e member.1
  · cases checked

theorem Plain.sentFinite (plain : Plain c) : Json.fieldsFinite (sentFields c) = true :=
  Json.fieldsFinite_iff.2 fun e member =>
    Json.fieldsFinite_iff.1 plain.finite e (List.mem_filter.1 member).1

/-- The answer for a column is checked to the column that was answered. -/
theorem check_answerColumn (plain : Plain c) (path : List String) :
    Column.check path (answerColumn c) = .ok (sentColumn c) := by
  have kept : (sentFields c).filter (·.1 ≠ "title") = sentFields c := by
    rw [List.filter_eq_self]
    intro e member
    simpa using plain.untitled e (List.mem_filter.1 member).1
  have answered : answerColumn c = .object (("title", .text c.title) :: sentFields c) := by
    rw [answerColumn, ← sentFields, answerFields_of_finite plain.sentFinite]
  rw [answered, Column.check, Entries.get?_cons, if_pos rfl, List.filter_cons_of_neg (by simp),
    kept, sentColumn]

theorem answerColumn_sentColumn (c : Column) : answerColumn (sentColumn c) = answerColumn c := by
  simp [answerColumn, sentColumn, sentFields]

theorem check_answerCell (path : List String) (c : Cell) :
    Cell.check path (answerCell c) = .ok c := by
  rcases c with ⟨_ | value, _ | formula, _ | error⟩ <;>
    simp [answerCell, answerCell.field, Cell.check, checkField, Entries.get?, fieldText?,
      Checked.both]

/-! ## Tables -/

def sentTable (t : Table) : Table := { t with columns := t.columns.map sentColumn }

theorem check_answerTable {t : Table} (plain : ∀ e ∈ t.columns.entries, Plain e.2) :
    (Draft.mk (some (.int t.rows))
      (some (.object (t.columns.entries.map fun e => (e.1, answerColumn e.2))))
      (some (.object (t.cells.entries.map fun e => (e.1, answerCell e.2))))).check =
      .ok (sentTable t) := by
  have rows : checkRows (some (.int t.rows)) = .ok t.rows := by
    have counted : ¬ (t.rows : Int) < 0 := by omega
    simp [checkRows, wholeOf, counted]
  have columns : checkObject "columns" Column.check
      (.object (t.columns.entries.map fun e => (e.1, answerColumn e.2))) =
      .ok (t.columns.map sentColumn) :=
    checkObject_entries fun e member => check_answerColumn (plain e member) _
  have cells : checkObject "data" Cell.check
      (.object (t.cells.entries.map fun e => (e.1, answerCell e.2))) = .ok (t.cells.map id) :=
    checkObject_entries fun e _ => check_answerCell _ e.2
  have same : t.cells.map id = t.cells := Roster.ext_entries (List.map_id _)
  simp only [Draft.check, rows, Draft.checkColumns, columns, Draft.checkData, cells, same]
  rfl

theorem answerTable_sentTable (t : Table) : answerTable (sentTable t) = answerTable t := by
  simp [answerTable, sentTable, Roster.map, answerColumn_sentColumn]

theorem evaluate_answerTable {t : Table} (plain : ∀ e ∈ t.columns.entries, Plain e.2)
    (settings : Settings) :
    evaluate (answerTable t) settings =
      answerFor (((sentTable t).recalculate settings).mapError .fault) := by
  have checked := check_answerTable plain
  simp [evaluate, answerTable, Entries.get?, Draft.ofFields, Draft.evaluate, checked]

end Service

/-! ## Recalculating again -/

/-- A table with other fields of its columns comes to the same. -/
theorem Table.recalculate_columns (settings : Settings) (t : Table) {columns : Roster Column}
    (names : columns.keys = t.columns.keys) :
    Table.recalculate settings { t with columns } = (t.recalculate settings).map fun r =>
      { r with table := { r.table with columns } } := by
  have bounds : ({ t with columns } : Table).bounds = t.bounds := by
    rw [Table.bounds, Table.bounds, names]
  unfold recalculate
  rw [bounds]
  rcases Wiring.ofCells settings t.bounds t.cells with fault | w
  · rfl
  · simp only [bind, Except.bind]
    rcases w.evaluate with fault | ⟨v, errors⟩
    · rfl
    · simp only
      rcases t.cells.traverse v.finalCell with fault | cells <;> rfl

/-- A table that was recalculated comes out as it went in. -/
theorem Table.recalculate_again {settings : Settings} {t : Table} {r : Recalculated}
    (h : t.recalculate settings = .ok r) : r.table.recalculate settings = .ok r := by
  rw [← r.table.recalculate_bare, (Table.sameInputs_of_recalculate h).bare_eq, t.recalculate_bare,
    h]

namespace Service

theorem evaluate_answerTable_again {settings : Settings} {t : Table} {r : Recalculated}
    (plain : ∀ e ∈ t.columns.entries, Plain e.2) (h : t.recalculate settings = .ok r) :
    evaluate (answerTable r.table) settings = answerFor (.ok r) := by
  have columns : r.table.columns = t.columns := (Table.sameInputs_of_recalculate h).columns
  have names : (r.table.columns.map sentColumn).keys = r.table.columns.keys := by
    simp [Roster.keys, Roster.map, Entries.keys, Function.comp_def]
  have again := r.table.recalculate_columns settings names
  rw [Table.recalculate_again h] at again
  rw [evaluate_answerTable (columns ▸ plain), sentTable, again]
  change answerFor (.ok { r with table := sentTable r.table }) = answerFor (.ok r)
  simp only [answerFor, answerTable_sentTable]

/-! ## Posting again -/

variable {settings : Settings} {depth : Nat}

/-- The bytes are a text of the value, read down to the depth. -/
def IsTextOf (depth : Nat) (bytes : List UInt8) (j : Json) : Prop :=
  ∃ chars, Text.decode? bytes = some chars ∧ Json.read chars depth = .ok j

theorem IsTextOf.post_eq {bytes : List UInt8} {j : Json} (sent : IsTextOf depth bytes j) :
    post bytes settings depth = evaluate j settings := by
  obtain ⟨chars, decoded, read⟩ := sent
  simp only [post, decoded, read]

/-- What is answered with success is a value with a table that was checked and recalculated. -/
theorem exists_of_evaluate {j body : Json} (answered : evaluate j settings = ⟨200, .json body⟩) :
    ∃ fields t r, j = .object fields ∧ (Draft.ofFields fields).check = .ok t ∧
      t.recalculate settings = .ok r ∧ answerFor (.ok r) = ⟨200, .json body⟩ := by
  have refused : ∀ detail, refuse detail ≠ ⟨200, .json body⟩ := by simp [refuse]
  have failed : failure ≠ ⟨200, .json body⟩ := by simp [failure]
  unfold evaluate at answered
  split at answered
  · rename_i fields
    split at answered
    · unfold Draft.evaluate at answered
      rcases checked : (Draft.ofFields fields).check with problems | t <;> rw [checked] at answered
      · exact absurd answered (refused _)
      · simp only at answered
        rcases ran : t.recalculate settings with fault | r <;> rw [ran] at answered
        · exact absurd answered failed
        · exact ⟨fields, t, r, rfl, checked, ran, answered⟩
    · exact absurd answered (refused _)
  · exact absurd answered (refused _)

theorem plain_of_draft {d : Draft} {t : Table}
    (finite : ∀ columns, d.columns = some columns → columns.isFinite = true)
    (checked : d.check = .ok t) : ∀ e ∈ t.columns.entries, Plain e.2 := by
  intro e member
  obtain ⟨_, _, _, rest, rfl⟩ := Checked.both_eq_ok checked
  obtain ⟨columns, _, sent, _, rfl⟩ := Checked.both_eq_ok rest
  unfold Draft.checkColumns at sent
  split at sent
  · cases sent
    cases member
  · rename_i j found
    obtain ⟨fields, a, rfl, present, here⟩ := exists_of_checkObject sent member
    have whole : Json.fieldsFinite fields = true := finite _ found
    exact plain_of_check (Json.fieldsFinite_iff.1 whole _ present) here

/-- An answer posted again is answered the same, whatever the settings of the service are. Where a
value with finite numbers only in its columns is answered with success, the answer holds a table,
and every text of this table is answered with success and with the same body. -/
theorem answer_posted_again {bytes : List UInt8} {j body : Json} (sent : IsTextOf depth bytes j)
    (finite : ∀ columns, j.field? "columns" = some columns → columns.isFinite = true)
    (answered : post bytes settings depth = ⟨200, .json body⟩) :
    ∃ table, body.field? "table" = some table ∧ evaluate table settings = ⟨200, .json body⟩ ∧
      ∀ again, IsTextOf depth again table → post again settings depth = ⟨200, .json body⟩ := by
  rw [sent.post_eq] at answered
  obtain ⟨fields, t, r, rfl, checked, ran, same⟩ := exists_of_evaluate answered
  have plain := plain_of_draft finite checked
  have again := (evaluate_answerTable_again plain ran).trans same
  have table : body.field? "table" = some (answerTable r.table) := by
    cases same
    rfl
  exact ⟨_, table, again, fun bytes' sent' => sent'.post_eq.trans again⟩

/-- A column with a field that is null and one that is a double, a cell with a truth value, and an
entry whose key another one has. -/
def posted : List UInt8 :=
  ("\x7b\"rows\":\"1\",\"columns\":\x7b\"b\":\x7b\"x\":null,\"w\":2.5\x7d\x7d," ++
    "\"data\":\x7b\"b1\":\x7b\"value\":true\x7d,\"B1\":\x7b\"formula\":\"=B2\"\x7d\x7d\x7d").toUTF8.toList

theorem answer_posted_again_of_posted :
    ∃ j body table, IsTextOf Json.usualDepth posted j ∧ post posted = ⟨200, .json body⟩ ∧
      body.field? "table" = some table ∧ evaluate table = ⟨200, .json body⟩ := by
  have reads : ((Text.decode? posted).bind fun chars => (Json.read chars).toOption.filter fun j =>
      (j.field? "columns").all Json.isFinite &&
        match evaluate j with
        | ⟨200, .json _⟩ => true
        | _ => false).isSome = true := by
    decide +kernel
  obtain ⟨j, found⟩ := Option.isSome_iff_exists.1 reads
  obtain ⟨chars, decoded, found⟩ := Option.bind_eq_some_iff.1 found
  obtain ⟨read, tests⟩ := Option.filter_eq_some_iff.1 found
  obtain ⟨finite, succeeds⟩ := Bool.and_eq_true_iff.1 tests
  have sent : IsTextOf Json.usualDepth posted j := ⟨chars, decoded, eq_ok_of_toOption read⟩
  split at succeeds
  · rename_i body answered
    have answered' := sent.post_eq.trans answered
    obtain ⟨table, held, again, _⟩ := answer_posted_again sent
      (fun columns found => by rw [found] at finite; exact finite) answered'
    exact ⟨j, body, table, sent, answered', held, again⟩
  · cases succeeds

end Service

end Worksheet
