-- The case of letters. Neither upper case nor what tells cell keys from other names sees a
-- difference between texts that differ in nothing but the case of ASCII letters.
import Worksheet.CellKey

namespace Worksheet.Text

def smallLetters : List Char := (List.range 26).map fun i => Char.ofNat ('a'.toNat + i)

theorem toUpper_eq_self_or_small (c : Char) : c.toUpper = c ∨ c ∈ smallLetters := by
  by_cases small : c ≥ 'a' ∧ c ≤ 'z'
  · have low : 97 ≤ c.toNat := small.1
    have high : c.toNat ≤ 122 := small.2
    refine Or.inr (List.mem_map.2 ⟨c.toNat - 97, List.mem_range.2 (by omega), ?_⟩)
    have same : 'a'.toNat + (c.toNat - 97) = c.toNat := by
      change 97 + (c.toNat - 97) = c.toNat
      omega
    rw [same, Char.ofNat_toNat]
  · unfold Char.toUpper
    exact Or.inl (dif_neg small)

/-- What does not see the case of the small letters sees that of no character. -/
theorem toUpper_congr {α : Type} {f : Char → α}
    (small : smallLetters.map (fun c => f c.toUpper) = smallLetters.map f) (c : Char) :
    f c.toUpper = f c := by
  rcases toUpper_eq_self_or_small c with same | letter
  · rw [same]
  · exact List.map_inj_left.1 small c letter

theorem isAlpha_toUpper : ∀ c : Char, c.toUpper.isAlpha = c.isAlpha := toUpper_congr (by decide)

theorem isAsciiDigit_toUpper : ∀ c : Char, Char.isDigit c.toUpper = Char.isDigit c :=
  toUpper_congr (by decide)

theorem upperChar_toUpper : ∀ c : Char, upperChar c.toUpper = upperChar c :=
  toUpper_congr (by decide +kernel)

theorem toUpper_eq_iff {d : Char} (mark : d ∉ smallLetters ∧ d ∉ smallLetters.map Char.toUpper)
    (c : Char) : c.toUpper = d ↔ c = d := by
  rcases toUpper_eq_self_or_small c with same | letter
  · rw [same]
  · refine iff_of_false ?_ ?_
    · rintro rfl
      exact mark.2 (List.mem_map_of_mem letter)
    · rintro rfl
      exact mark.1 letter

/-- The characters differ in the case of ASCII letters at most. -/
def SameLetters (cs ds : List Char) : Prop := cs.map Char.toUpper = ds.map Char.toUpper

instance (cs ds : List Char) : Decidable (SameLetters cs ds) := inferInstanceAs (Decidable (_ = _))

namespace SameLetters

variable {cs ds es fs : List Char}

theorem symm (h : SameLetters cs ds) : SameLetters ds cs := Eq.symm h

theorem length_eq (h : SameLetters cs ds) : cs.length = ds.length := by
  simpa using congrArg List.length h

theorem append (h : SameLetters cs ds) (h' : SameLetters es fs) :
    SameLetters (cs ++ es) (ds ++ fs) := by
  unfold SameLetters at h h' ⊢
  rw [List.map_append, List.map_append, h, h']

theorem congr {α : Type} {f : List Char → α} (h : SameLetters cs ds)
    (blind : ∀ xs, f (xs.map Char.toUpper) = f xs) : f cs = f ds := by
  rw [← blind cs, h, blind ds]

end SameLetters

theorem SameLetters.upper_eq {s t : String} (h : SameLetters s.toList t.toList) :
    upper s = upper t := by
  refine congrArg String.ofList (h.congr fun xs => ?_)
  rw [List.flatMap_map]
  exact congrArg (xs.flatMap ·) (funext upperChar_toUpper)

theorem SameLetters.eq_empty_iff {s t : String} (h : SameLetters s.toList t.toList) :
    s = "" ↔ t = "" := by
  rw [← String.toList_eq_nil_iff, ← String.toList_eq_nil_iff, ← List.length_eq_zero_iff,
    ← List.length_eq_zero_iff, h.length_eq]

theorem takeWhile_map_toUpper {p : Char → Bool} (blind : ∀ c, p (Char.toUpper c) = p c)
    (cs : List Char) : (cs.map Char.toUpper).takeWhile p = (cs.takeWhile p).map Char.toUpper := by
  rw [List.takeWhile_map]
  exact congrArg (fun q => (cs.takeWhile q).map Char.toUpper) (funext blind)

theorem dropWhile_map_toUpper {p : Char → Bool} (blind : ∀ c, p (Char.toUpper c) = p c)
    (cs : List Char) : (cs.map Char.toUpper).dropWhile p = (cs.dropWhile p).map Char.toUpper := by
  rw [List.dropWhile_map]
  exact congrArg (fun q => (cs.dropWhile q).map Char.toUpper) (funext blind)

theorem splitKey?_map_toUpper (cs : List Char) :
    (splitKey? (cs.map Char.toUpper)).isSome = (splitKey? cs).isSome := by
  have feed := toUpper_eq_iff (d := '\n') (by decide)
  have ends : ∀ tail : List Char, tail.map Char.toUpper = ['\n'] ↔ tail = ['\n'] := by
    intro tail
    rcases tail with _ | ⟨c, _ | ⟨d, rest⟩⟩ <;> simp [feed]
  simp only [splitKey?, takeWhile_map_toUpper isAlpha_toUpper, dropWhile_map_toUpper isAlpha_toUpper,
    takeWhile_map_toUpper isAsciiDigit_toUpper, dropWhile_map_toUpper isAsciiDigit_toUpper, ne_eq,
    List.map_eq_nil_iff, ends]
  split <;> rfl

theorem SameLetters.isCellKey_eq {s t : String} (h : SameLetters s.toList t.toList) :
    isCellKey s = isCellKey t :=
  h.congr (f := fun cs => (splitKey? cs).isSome) splitKey?_map_toUpper

end Worksheet.Text
