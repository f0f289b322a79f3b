-- Values under keys, in the order in which the keys came. No key stands twice; a value that is put
-- under a key that is there takes the place of the old one.

namespace Worksheet

/-! ## Entries -/

namespace Entries

variable {α β ε : Type}

/-- The keys of entries. -/
def keys (es : List (String × α)) : List String := es.map (·.1)

/-- The entries with a value under a key: in the key's place, or else at the end. -/
def put (es : List (String × α)) (key : String) (a : α) : List (String × α) :=
  match es with
  | [] => [(key, a)]
  | e :: rest => if e.1 = key then (key, a) :: rest else e :: put rest key a

def get? (es : List (String × α)) (key : String) : Option α :=
  match es with
  | [] => none
  | e :: rest => if e.1 = key then some e.2 else get? rest key

/-- The entries with new values under the same keys. -/
def traverse (f : String → α → Except ε β) : List (String × α) → Except ε (List (String × β))
  | [] => .ok []
  | (key, a) :: rest => do
    let b ← f key a
    let bs ← traverse f rest
    .ok ((key, b) :: bs)

theorem keys_put (es : List (String × α)) (key : String) (a : α) :
    keys (put es key a) = if key ∈ keys es then keys es else keys es ++ [key] := by
  induction es with
  | nil => simp [put, keys]
  | cons e rest ih =>
    unfold put
    by_cases same : e.1 = key
    · simp [same, keys]
    · have other : ¬ key = e.1 := fun h => same h.symm
      simp only [keys] at ih ⊢
      by_cases present : key ∈ rest.map (·.1) <;> simp [same, other, present, ih]

theorem nodup_keys_put {es : List (String × α)} (h : (keys es).Nodup) (key : String) (a : α) :
    (keys (put es key a)).Nodup := by
  rw [keys_put]
  split
  · exact h
  · rename_i absent
    refine List.nodup_append.2 ⟨h, by simp, ?_⟩
    rintro x hx y hy rfl
    exact absent (List.mem_singleton.1 hy ▸ hx)

theorem get?_put_self (es : List (String × α)) (key : String) (a : α) :
    get? (put es key a) key = some a := by
  induction es with
  | nil => simp [put, get?]
  | cons e rest ih =>
    unfold put
    split
    · simp [get?]
    · rename_i other
      simp [get?, other, ih]

theorem get?_put_of_ne (es : List (String × α)) {key other : String} (h : other ≠ key) (a : α) :
    get? (put es key a) other = get? es other := by
  induction es with
  | nil => simp [put, get?, h.symm]
  | cons e rest ih =>
    unfold put
    split
    · rename_i same
      simp [get?, same, h.symm]
    · simp [get?, ih]

/-- A value that is put under a key that is there takes the place of the one under it. -/
theorem exists_put_split {es : List (String × α)} {key : String} (present : key ∈ keys es) :
    ∃ before a after, es = before ++ (key, a) :: after ∧ key ∉ keys before ∧
      ∀ b, put es key b = before ++ (key, b) :: after := by
  induction es with
  | nil => cases present
  | cons e rest ih =>
    by_cases same : e.1 = key
    · subst same
      exact ⟨[], e.2, rest, rfl, List.not_mem_nil, fun b => by simp [put]⟩
    · have later : key ∈ keys rest := (List.mem_cons.1 present).resolve_left (Ne.symm same)
      obtain ⟨before, a, after, whole, fresh, replaced⟩ := ih later
      refine ⟨e :: before, a, after, by rw [whole]; rfl, ?_, fun b => ?_⟩
      · exact List.not_mem_cons_of_ne_of_not_mem (Ne.symm same) fresh
      · rw [put, if_neg same, replaced]
        rfl

theorem put_eq_self {es : List (String × α)} {key : String} {a : α}
    (found : get? es key = some a) : put es key a = es := by
  induction es with
  | nil => simp [get?] at found
  | cons e rest ih =>
    unfold get? at found
    unfold put
    split at found
    · rename_i same
      cases found
      rw [if_pos same, ← same]
    · rename_i other
      rw [if_neg other, ih found]

theorem get?_isSome (es : List (String × α)) (key : String) :
    (get? es key).isSome = true ↔ key ∈ keys es := by
  induction es with
  | nil => simp [get?, keys]
  | cons e rest ih =>
    unfold get?
    by_cases same : e.1 = key
    · simp [same, keys]
    · have other : ¬ key = e.1 := fun h => same h.symm
      simp only [keys] at ih
      simp [same, other, keys, ih]

theorem nodup_keys_filter {es : List (String × α)} (h : (keys es).Nodup)
    (p : String × α → Bool) : (keys (es.filter p)).Nodup :=
  h.sublist (List.filter_sublist.map _)

theorem keys_traverse {f : String → α → Except ε β} {es : List (String × α)}
    {bs : List (String × β)} (h : traverse f es = .ok bs) : keys bs = keys es := by
  induction es generalizing bs with
  | nil => cases h; rfl
  | cons e rest ih =>
    obtain ⟨key, a⟩ := e
    simp only [traverse] at h
    rcases hb : f key a with _ | b <;> rw [hb] at h
    · cases h
    rcases hr : traverse f rest with _ | bs' <;> rw [hr] at h
    · cases h
    cases h
    simpa [keys] using ih hr

theorem get?_cons (e : String × α) (rest : List (String × α)) (key : String) :
    get? (e :: rest) key = if e.1 = key then some e.2 else get? rest key := rfl

theorem get?_traverse {f : String → α → Except ε β} {es : List (String × α)}
    {bs : List (String × β)} (h : traverse f es = .ok bs) {key : String} {a : α}
    (found : get? es key = some a) : ∃ b, f key a = .ok b ∧ get? bs key = some b := by
  induction es generalizing bs with
  | nil => simp [get?] at found
  | cons e rest ih =>
    obtain ⟨first, x⟩ := e
    simp only [traverse] at h
    rcases hb : f first x with _ | b <;> rw [hb] at h
    · cases h
    rcases hr : traverse f rest with _ | bs' <;> rw [hr] at h
    · cases h
    cases h
    by_cases same : first = key
    · simp only [get?, same, if_true, Option.some.injEq] at found
      subst same found
      exact ⟨b, hb, by simp [get?]⟩
    · simp only [get?, same, if_false] at found ⊢
      exact ih hr found

theorem exists_traverse {f : String → α → Except ε β} {es : List (String × α)}
    (h : ∀ e ∈ es, ∃ b, f e.1 e.2 = .ok b) : ∃ bs, traverse f es = .ok bs := by
  induction es with
  | nil => exact ⟨[], rfl⟩
  | cons e rest ih =>
    obtain ⟨b, hb⟩ := h e (List.mem_cons_self ..)
    obtain ⟨bs, hbs⟩ := ih fun e' he' => h e' (List.mem_cons_of_mem _ he')
    exact ⟨(e.1, b) :: bs, by simp only [traverse, hb, hbs]; rfl⟩

theorem get?_of_mem {es : List (String × α)} (h : (keys es).Nodup) {e : String × α}
    (member : e ∈ es) : get? es e.1 = some e.2 := by
  induction es with
  | nil => cases member
  | cons first rest ih =>
    simp only [keys, List.map_cons, List.nodup_cons] at h
    rcases List.mem_cons.1 member with rfl | later
    · simp [get?]
    · have other : first.1 ≠ e.1 := fun same =>
        h.1 (List.mem_map.2 ⟨e, later, same.symm⟩)
      simp only [get?, other, if_false]
      exact ih h.2 later

theorem mem_of_get? {es : List (String × α)} {key : String} {a : α}
    (found : get? es key = some a) : (key, a) ∈ es := by
  induction es with
  | nil => simp [get?] at found
  | cons first rest ih =>
    unfold get? at found
    split at found
    · rename_i same
      cases found
      exact same ▸ List.mem_cons_self ..
    · exact List.mem_cons_of_mem _ (ih found)

end Entries

/-! ## Rosters -/

/-- Values under keys, each key once. -/
structure Roster (α : Type) where
  entries : List (String × α)
  nodup : (Entries.keys entries).Nodup

namespace Roster

variable {α β ε : Type}

def empty : Roster α := ⟨[], by simp [Entries.keys]⟩

def keys (r : Roster α) : List String := Entries.keys r.entries

def size (r : Roster α) : Nat := r.entries.length

def get? (r : Roster α) (key : String) : Option α := Entries.get? r.entries key

def contains (r : Roster α) (key : String) : Bool := (r.get? key).isSome

/-- The roster with a value under a key. -/
def put (r : Roster α) (key : String) (a : α) : Roster α :=
  ⟨Entries.put r.entries key a, Entries.nodup_keys_put r.nodup key a⟩

def erase (r : Roster α) (key : String) : Roster α :=
  ⟨r.entries.filter (·.1 ≠ key), Entries.nodup_keys_filter r.nodup _⟩

/-- The roster with the value under a key changed, if there is one. -/
def modify (r : Roster α) (key : String) (f : α → α) : Roster α :=
  match r.get? key with
  | none => r
  | some a => r.put key (f a)

/-- The roster of entries; of two with one key the later one counts, in the place of the first. -/
def ofEntries (es : List (String × α)) : Roster α := es.foldl (fun r e => r.put e.1 e.2) empty

/-- The roster with new values under the same keys. -/
def traverse (f : String → α → Except ε β) (r : Roster α) : Except ε (Roster β) :=
  match h : Entries.traverse f r.entries with
  | .error e => .error e
  | .ok bs => .ok ⟨bs, by rw [Entries.keys_traverse h]; exact r.nodup⟩

/-! ## What the operations do -/

theorem keys_put (r : Roster α) (key : String) (a : α) :
    (r.put key a).keys = if key ∈ r.keys then r.keys else r.keys ++ [key] :=
  Entries.keys_put r.entries key a

theorem get?_put_self (r : Roster α) (key : String) (a : α) : (r.put key a).get? key = some a :=
  Entries.get?_put_self r.entries key a

theorem get?_put_of_ne (r : Roster α) {key other : String} (h : other ≠ key) (a : α) :
    (r.put key a).get? other = r.get? other :=
  Entries.get?_put_of_ne r.entries h a

theorem put_eq_self {r : Roster α} {key : String} {a : α} (found : r.get? key = some a) :
    r.put key a = r := by
  unfold put
  congr 1
  exact Entries.put_eq_self found

theorem contains_iff (r : Roster α) (key : String) : r.contains key = true ↔ key ∈ r.keys :=
  Entries.get?_isSome r.entries key

theorem contains_put (r : Roster α) (key k : String) (a : α) :
    (r.put key a).contains k = (k == key || r.contains k) := by
  unfold contains
  by_cases same : k = key
  · subst same
    simp [get?_put_self]
  · simp [get?_put_of_ne, same]

theorem keys_modify (r : Roster α) (key : String) (f : α → α) :
    (r.modify key f).keys = r.keys := by
  unfold modify
  split
  · rfl
  · rename_i a found
    have member : key ∈ r.keys := (r.contains_iff key).1 (by simp [contains, found])
    rw [keys_put, if_pos member]

theorem get?_modify_self (r : Roster α) (key : String) (f : α → α) :
    (r.modify key f).get? key = (r.get? key).map f := by
  unfold modify
  split
  · rename_i absent
    rw [absent]
    rfl
  · rename_i a found
    rw [get?_put_self, found]
    rfl

theorem get?_modify_of_ne (r : Roster α) {key other : String} (h : other ≠ key) (f : α → α) :
    (r.modify key f).get? other = r.get? other := by
  unfold modify
  split
  · rfl
  · exact get?_put_of_ne r h _

theorem get?_eq_none_iff (r : Roster α) (key : String) : r.get? key = none ↔ key ∉ r.keys := by
  rw [← r.contains_iff, contains]
  cases r.get? key <;> simp

theorem keys_traverse {f : String → α → Except ε β} {r : Roster α} {s : Roster β}
    (h : r.traverse f = .ok s) : s.keys = r.keys := by
  unfold traverse at h
  split at h
  · cases h
  · rename_i bs found
    cases h
    exact Entries.keys_traverse found

theorem get?_traverse {f : String → α → Except ε β} {r : Roster α} {s : Roster β}
    (h : r.traverse f = .ok s) {key : String} {a : α} (found : r.get? key = some a) :
    ∃ b, f key a = .ok b ∧ s.get? key = some b := by
  unfold traverse at h
  split at h
  · cases h
  · rename_i bs traversed
    cases h
    exact Entries.get?_traverse traversed found

theorem exists_traverse {f : String → α → Except ε β} {r : Roster α}
    (h : ∀ e ∈ r.entries, ∃ b, f e.1 e.2 = .ok b) : ∃ s, r.traverse f = .ok s := by
  obtain ⟨bs, hbs⟩ := Entries.exists_traverse h
  unfold traverse
  split
  · rename_i failed
    cases failed.symm.trans hbs
  · exact ⟨_, rfl⟩

theorem get?_of_mem (r : Roster α) {e : String × α} (member : e ∈ r.entries) :
    r.get? e.1 = some e.2 := Entries.get?_of_mem r.nodup member

theorem mem_of_get? {r : Roster α} {key : String} {a : α} (found : r.get? key = some a) :
    (key, a) ∈ r.entries := Entries.mem_of_get? found

theorem get?_eq_some_iff (r : Roster α) {key : String} {a : α} :
    r.get? key = some a ↔ (key, a) ∈ r.entries := ⟨mem_of_get?, r.get?_of_mem⟩

theorem get?_ofEntries {es : List (String × α)} (h : (Entries.keys es).Nodup) (key : String) :
    (ofEntries es).get? key = Entries.get? es key := by
  have general : ∀ r : Roster α, (∀ k ∈ Entries.keys es, r.get? k = none) →
      (es.foldl (fun r e => r.put e.1 e.2) r).get? key =
        (Entries.get? es key).or (r.get? key) := by
    induction es with
    | nil => intro r _; rfl
    | cons e rest ih =>
      intro r fresh
      simp only [Entries.keys, List.map_cons, List.nodup_cons] at h
      rw [List.foldl_cons, ih h.2]
      · rw [Entries.get?_cons]
        by_cases same : e.1 = key
        · subst same
          have absent : Entries.get? rest e.1 = none := by
            rcases found : Entries.get? rest e.1 with _ | a
            · rfl
            · exact absurd ((Entries.get?_isSome rest e.1).1 (by rw [found]; rfl)) h.1
          rw [absent, get?_put_self]
          simp
        · rw [get?_put_of_ne r (Ne.symm same)]
          simp [same]
      · intro k hk
        have other : k ≠ e.1 := fun same => h.1 (same ▸ hk)
        rw [get?_put_of_ne r other]
        exact fresh k (List.mem_cons_of_mem _ hk)
  have := general empty fun _ _ => rfl
  simpa [ofEntries, get?, empty, Entries.get?] using this

end Roster

end Worksheet
