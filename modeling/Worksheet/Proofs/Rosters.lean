-- Rosters whose values are changed under their keys. The keys stay in their places, so a change of
-- all values goes together with a look-up, with a value that is put in, and with one that is
-- changed.
import Worksheet.Roster

namespace Worksheet

namespace Roster

variable {α β γ ε : Type}

theorem ext_entries {r s : Roster α} (same : r.entries = s.entries) : r = s := by
  cases r
  cases s
  cases same
  rfl

def map (f : α → β) (r : Roster α) : Roster β where
  entries := r.entries.map fun e => (e.1, f e.2)
  nodup := by
    have keys : Entries.keys (r.entries.map fun e => (e.1, f e.2)) = Entries.keys r.entries := by
      simp [Entries.keys, Function.comp_def]
    exact keys ▸ r.nodup

theorem keys_map (f : α → β) (r : Roster α) : (r.map f).keys = r.keys := by
  simp [keys, map, Entries.keys, Function.comp_def]

theorem get?_map (f : α → β) (r : Roster α) (key : String) :
    (r.map f).get? key = (r.get? key).map f := by
  obtain ⟨es, nodup⟩ := r
  change Entries.get? (es.map fun e => (e.1, f e.2)) key = (Entries.get? es key).map f
  clear nodup
  induction es with
  | nil => rfl
  | cons e rest ih =>
    rw [List.map_cons, Entries.get?_cons, Entries.get?_cons, ih]
    split <;> rfl

theorem contains_map (f : α → β) (r : Roster α) (key : String) :
    (r.map f).contains key = r.contains key := by
  rw [contains, get?_map, Option.isSome_map, contains]

theorem put_map (f : α → β) (r : Roster α) (key : String) (a : α) :
    (r.map f).put key (f a) = (r.put key a).map f := by
  apply ext_entries
  obtain ⟨es, nodup⟩ := r
  change Entries.put (es.map fun e => (e.1, f e.2)) key (f a) =
    (Entries.put es key a).map fun e => (e.1, f e.2)
  clear nodup
  induction es with
  | nil => rfl
  | cons e rest ih =>
    rw [List.map_cons, Entries.put, Entries.put]
    split
    · rfl
    · rw [ih, List.map_cons]

theorem modify_map {f : α → β} {g : α → α} {h : β → β} (same : ∀ a, h (f a) = f (g a))
    (r : Roster α) (key : String) : (r.map f).modify key h = (r.modify key g).map f := by
  unfold modify
  rw [get?_map]
  rcases r.get? key with _ | a
  · rfl
  · simp only [Option.map_some, same, put_map]

/-- A change that `f` does not show makes no difference to what `f` makes of the values. -/
theorem map_modify_of_same {f : α → β} {g : α → α} (same : ∀ a, f (g a) = f a) (r : Roster α)
    (key : String) : (r.modify key g).map f = r.map f := by
  unfold modify
  rcases found : r.get? key with _ | a
  · rfl
  · have shown : (r.map f).get? key = some (f a) := by rw [get?_map, found, Option.map_some]
    rw [← put_map, same, put_eq_self shown]

theorem map_eq_of_get? {f : α → β} {r s : Roster α} (keys : r.keys = s.keys)
    (same : ∀ key a b, r.get? key = some a → s.get? key = some b → f a = f b) :
    r.map f = s.map f := by
  apply ext_entries
  obtain ⟨es, nodup⟩ := r
  obtain ⟨ds, nodup'⟩ := s
  change es.map (fun e => (e.1, f e.2)) = ds.map fun e => (e.1, f e.2)
  change Entries.keys es = Entries.keys ds at keys
  change ∀ key a b, Entries.get? es key = some a → Entries.get? ds key = some b → f a = f b at same
  induction es generalizing ds with
  | nil => cases ds with
    | nil => rfl
    | cons d later => cases keys
  | cons e rest ih => cases ds with
    | nil => cases keys
    | cons d later =>
      simp only [Entries.keys, List.map_cons, List.cons.injEq] at keys
      simp only [Entries.keys, List.map_cons, List.nodup_cons] at nodup nodup'
      have first := same e.1 e.2 d.2 (by simp [Entries.get?]) (by simp [Entries.get?, keys.1])
      have others := ih nodup.2 later nodup'.2 keys.2 fun key a b ha hb => by
        have apart : ∀ x : String × α, x.1 = e.1 → x.1 ≠ key := by
          rintro x here rfl
          exact nodup.1 (here ▸ (Entries.get?_isSome rest x.1).1 (by rw [ha]; rfl))
        apply same key a b
        · rw [Entries.get?_cons, if_neg (apart e rfl), ha]
        · rw [Entries.get?_cons, if_neg (apart d keys.1.symm), hb]
      rw [List.map_cons, List.map_cons, others, first, keys.1]

theorem traverse_map {f : α → β} {g : String → β → Except ε γ} {h : String → α → Except ε γ}
    (same : ∀ key a, g key (f a) = h key a) (r : Roster α) :
    (r.map f).traverse g = r.traverse h := by
  have entries : Entries.traverse g (r.map f).entries = Entries.traverse h r.entries := by
    change Entries.traverse g (r.entries.map fun e => (e.1, f e.2)) = _
    induction r.entries with
    | nil => rfl
    | cons e rest ih =>
      rw [List.map_cons, Entries.traverse, Entries.traverse, same, ih]
  unfold traverse
  split <;> split <;> rename_i left _ right <;>
    rw [entries, right] at left <;> cases left <;> rfl

end Roster

end Worksheet
