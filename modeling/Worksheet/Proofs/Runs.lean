-- Runs of steps that may fail. What every step keeps a whole run keeps, and a run gets to its end
-- where every step does.

namespace Worksheet

section

variable {α β ε : Type}

theorem exists_of_bind {x : Except ε α} {f : α → Except ε β} {b : β} (h : x >>= f = .ok b) :
    ∃ a, x = .ok a ∧ f a = .ok b := by
  cases x with
  | error e => cases h
  | ok a => exact ⟨a, rfl, h⟩

theorem eq_ok_of_toOption {x : Except ε α} {a : α} (h : x.toOption = some a) : x = .ok a := by
  cases x with
  | error e => cases h
  | ok b => exact congrArg Except.ok (Option.some.inj h)

/-- What holds at the start and is kept by every step holds at the end of a run that got there. -/
theorem foldlM_keeps (P : List α → β → Prop) {f : β → α → Except ε β} {items : List α} {b c : β}
    (start : P [] b)
    (step : ∀ done item rest, items = done ++ item :: rest →
      ∀ x y, P done x → f x item = .ok y → P (done ++ [item]) y)
    (run : items.foldlM f b = .ok c) : P items c := by
  have general : ∀ done rest x, items = done ++ rest → P done x → rest.foldlM f x = .ok c →
      P items c := by
    intro done rest
    induction rest generalizing done with
    | nil =>
      intro x whole now run
      cases run
      simpa [whole] using now
    | cons item rest ih =>
      intro x whole now run
      rw [List.foldlM_cons] at run
      obtain ⟨y, first, later⟩ := exists_of_bind run
      exact ih (done ++ [item]) y (by simpa using whole) (step done item rest whole x y now first)
        later
  exact general [] items b rfl start run

theorem foldlM_snoc {f : β → α → Except ε β} {items : List α} {item : α} {b c d : β}
    (run : items.foldlM f b = .ok c) (step : f c item = .ok d) :
    (items ++ [item]).foldlM f b = .ok d := by
  rw [List.foldlM_append, run]
  simp only [bind, Except.bind, List.foldlM_cons, step]
  rfl

theorem exists_of_foldlM_append {f : β → α → Except ε β} {items more : List α} {b d : β}
    (run : (items ++ more).foldlM f b = .ok d) :
    ∃ c, items.foldlM f b = .ok c ∧ more.foldlM f c = .ok d := by
  rw [List.foldlM_append] at run
  exact exists_of_bind run

/-- A run that keeps what every step keeps gets to its end, or one of its steps stops it. -/
theorem foldlM_ends_or_stops (P : List α → β → Prop) (Q : ε → Prop) {f : β → α → Except ε β}
    {items : List α} {b : β} (start : P [] b)
    (step : ∀ done item rest, items = done ++ item :: rest → ∀ x, P done x →
      (∃ y, f x item = .ok y ∧ P (done ++ [item]) y) ∨ ∃ e, f x item = .error e ∧ Q e) :
    (∃ c, items.foldlM f b = .ok c ∧ P items c) ∨ ∃ e, items.foldlM f b = .error e ∧ Q e := by
  have general : ∀ done rest x, items = done ++ rest → P done x →
      (∃ c, rest.foldlM f x = .ok c ∧ P items c) ∨ ∃ e, rest.foldlM f x = .error e ∧ Q e := by
    intro done rest
    induction rest generalizing done with
    | nil =>
      intro x whole now
      exact Or.inl ⟨x, rfl, by simpa [whole] using now⟩
    | cons item rest ih =>
      intro x whole now
      rw [List.foldlM_cons]
      rcases step done item rest whole x now with ⟨y, first, kept⟩ | ⟨e, stopped, cause⟩
      · rw [first]
        exact ih (done ++ [item]) y (by simpa using whole) kept
      · rw [stopped]
        exact Or.inr ⟨e, rfl, cause⟩
  exact general [] items b rfl start

theorem exists_foldlM (P : List α → β → Prop) {f : β → α → Except ε β} {items : List α} {b : β}
    (start : P [] b)
    (step : ∀ done item rest, items = done ++ item :: rest →
      ∀ x, P done x → ∃ y, f x item = .ok y ∧ P (done ++ [item]) y) :
    ∃ c, items.foldlM f b = .ok c ∧ P items c := by
  have ends := foldlM_ends_or_stops P (fun _ => False) start fun done item rest whole x now =>
    Or.inl (step done item rest whole x now)
  exact ends.resolve_right fun ⟨_, _, never⟩ => never

/-- A run gets to its end beside another that does, where each of its steps follows one of the
other's, and they keep what every two such steps keep. -/
theorem foldlM_beside {γ : Type} (R : List α → β → γ → Prop) {f : β → α → Except ε β}
    {g : γ → α → Except ε γ} {items : List α} {b b' : β} {c : γ} (start : R [] b c)
    (step : ∀ done item rest, items = done ++ item :: rest →
      ∀ x y x', R done x y → f x item = .ok x' →
        ∃ y', g y item = .ok y' ∧ R (done ++ [item]) x' y')
    (run : items.foldlM f b = .ok b') : ∃ c', items.foldlM g c = .ok c' ∧ R items b' c' := by
  refine foldlM_keeps (fun done x => ∃ y, done.foldlM g c = .ok y ∧ R done x y) ?_ ?_ run
  · exact ⟨c, rfl, start⟩
  · intro done item rest whole x x' ⟨y, ran, now⟩ first
    obtain ⟨y', second, next⟩ := step done item rest whole x y x' now first
    exact ⟨y', foldlM_snoc ran second, next⟩

/-- Two runs go side by side where each step of the one is a step of the other, changed as the
states are. -/
theorem foldlM_map_of_step {γ δ : Type} {m : β → γ} {n : α → δ} {f : β → α → Except ε β}
    {g : γ → δ → Except ε γ} (step : ∀ b a, g (m b) (n a) = (f b a).map m) (items : List α) (b : β) :
    (items.map n).foldlM g (m b) = (items.foldlM f b).map m := by
  induction items generalizing b with
  | nil => rfl
  | cons a rest ih =>
    rw [List.map_cons, List.foldlM_cons, List.foldlM_cons, step]
    rcases f b a with e | c
    · rfl
    · exact ih c

end

end Worksheet
