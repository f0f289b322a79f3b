-- Blanks between tokens. Tokens can be written with any blanks between them, and the text is read
-- as it was without: as the same tokens and the same tree, at other places.
import Worksheet.Proofs.Formula.Places
import Worksheet.Proofs.Formula.References

namespace Worksheet.Formula

open Worksheet.Text (isBlank isDigit)

/-! ## Blanks -/

theorem not_blank_of_isNameChar {c : Char} (h : isNameChar c = true) : isBlank c = false := by
  simp only [isNameChar, isNameStart, Bool.or_eq_true, beq_iff_eq] at h
  rcases h with (letter | rfl) | digit
  · exact (starts_name letter).1
  · decide
  · exact (digit_spec digit).1

theorem ends_of_isBlank {c : Char} (h : isBlank c = true) : Ends c := by
  have other : ∀ {p : Char → Bool}, (p c = true → isBlank c = false) → p c = false := fun none =>
    eq_false_of_ne_true fun some => Bool.noConfusion (h.symm.trans (none some))
  have apart : ∀ marks : List Char, marks.any isBlank = false → c ∉ marks :=
    fun marks none member =>
      Bool.noConfusion (none.symm.trans (List.any_eq_true.2 ⟨c, member, h⟩))
  refine ⟨other not_blank_of_isDigit, other not_blank_of_isNameChar, ?_, ?_, ?_⟩
  · exact apart _ (by decide)
  · exact apart _ (by decide)
  · exact List.ne_of_not_mem_cons (apart ['"'] (by decide))

variable {pos : Nat} {cs : List Char} {ts us : List Token}

/-- Blanks in front of a text change nothing but the places of its tokens. -/
theorem Scanned.after_blanks {gap : List Char} (h : Scanned (pos + gap.length) cs ts)
    (blank : ∀ c ∈ gap, isBlank c = true) : Scanned pos (gap ++ cs) ts := by
  have whole := run_append_of_all blank cs
  by_cases empty : gap = []
  · subst empty
    exact h
  have long := List.length_pos_iff.2 empty
  have found : lexeme? (gap ++ cs) = some ⟨none, gap.length + run isBlank cs⟩ := by
    rw [← whole]
    exact if_pos (by omega)
  -- Where the text starts with blanks, they and those in front are one lexeme.
  cases h with
  | done =>
    have last : Scanned (pos + gap.length) [] [] := .done _
    exact .blank found last
  | @blank _ blanks cs ts first later =>
    rw [run_of_blanks first, ← List.length_append, ← List.append_assoc] at found
    rw [Nat.add_assoc, ← List.length_append] at later
    rw [← List.append_assoc]
    exact .blank found later
  | token first later =>
    rw [run_of_token first] at found
    exact .blank found (.token first later)

/-! ## Tokens that stand alone -/

/-- What a token is, wherever it stands. -/
def Token.face (t : Token) : TokenKind × String := (t.kind, t.text)

theorem Token.face_eq_iff {t u : Token} : t.face = u.face ↔ t.kind = u.kind ∧ t.text = u.text :=
  Prod.ext_iff

/-- The text of the token is one lexeme, of its kind. -/
def Token.Lone (t : Token) : Prop :=
  lexeme? t.text.toList = some ⟨some t.kind, t.text.toList.length⟩

theorem Scanned.lone (h : Scanned pos cs ts) : ∀ t ∈ ts, t.Lone := by
  induction h with
  | done => exact nofun
  | blank found later ih => exact ih
  | @token pos front cs kind ts found later ih =>
    refine List.forall_mem_cons.2 ⟨?_, ih⟩
    have alone : lexeme? (front ++ []) = some ⟨some kind, front.length⟩ :=
      lexeme?_cut found
    rw [List.append_nil] at alone
    simpa [Token.Lone] using alone

theorem Token.Lone.lexeme?_append {t : Token} (h : t.Lone)
    (blank : ∀ c, cs.head? = some c → isBlank c = true) :
    lexeme? (t.text.toList ++ cs) = some ⟨some t.kind, t.text.toList.length⟩ := by
  rcases cs with _ | ⟨c, cs⟩
  · rw [List.append_nil]
    exact h
  · have found : lexeme? (t.text.toList ++ []) = some ⟨some t.kind, t.text.toList.length⟩ := by
      rw [List.append_nil]
      exact h
    have token : some t.kind = none → isBlank c = false := nofun
    exact lexeme?_divide (ends_of_isBlank (blank c rfl)) token found (Or.inl rfl) cs

/-! ## Tokens with blanks between them -/

/-- The characters are the words in their order, with blanks between every two of them, and
blanks or nothing after the last. -/
inductive Spaced : List String → List Char → Prop
  | done {gap : List Char} (blank : ∀ c ∈ gap, isBlank c = true) : Spaced [] gap
  | word {w : String} {words : List String} {gap cs : List Char}
    (blank : ∀ c ∈ gap, isBlank c = true) (apart : words ≠ [] → gap ≠ [])
    (later : Spaced words cs) : Spaced (w :: words) (w.toList ++ (gap ++ cs))

/-- Tokens that stand alone are found again where blanks are between them. -/
theorem Spaced.exists_scanned {words : List String} (h : Spaced words cs)
    (lone : ∀ t ∈ ts, t.Lone) (texts : ts.map (·.text) = words) (pos : Nat) :
    ∃ us, Scanned pos cs us ∧ us.map Token.face = ts.map Token.face := by
  induction h generalizing ts pos with
  | @done gap blank =>
    obtain rfl := List.map_eq_nil_iff.1 texts
    have none : Scanned (pos + gap.length) [] [] := .done _
    exact ⟨[], by simpa using none.after_blanks blank, rfl⟩
  | @word w words gap cs blank apart later ih =>
    obtain ⟨t, ts, rfl, rfl, rfl⟩ := List.map_eq_cons_iff.1 texts
    obtain ⟨first, rest⟩ := List.forall_mem_cons.1 lone
    obtain ⟨us, scanned, faces⟩ := ih rest rfl (pos + t.text.toList.length + gap.length)
    have next : ∀ c, (gap ++ cs).head? = some c → isBlank c = true := by
      intro c head
      rcases gap with _ | ⟨b, gap⟩
      · -- Without blanks after it the token is the last one.
        have last : ts.map (·.text) = [] := by
          by_contra more
          exact apart more rfl
        rw [last] at later
        obtain ⟨blank⟩ := later
        exact blank c (List.mem_of_mem_head? head)
      · cases head
        exact blank _ (List.mem_cons_self ..)
    refine ⟨⟨t.kind, .ofList t.text.toList, pos⟩ :: us, ?_, ?_⟩
    · exact .token (first.lexeme?_append next) (scanned.after_blanks blank)
    · simp [faces, Token.face]

/-! ## Trees -/

def Expr.unplaced (e : Expr) : Expr := e.move fun _ => 0

theorem Expr.sameRoom_of_unplaced {e d : Expr} (same : d.unplaced = e.unplaced) :
    d.SameRoom e := by
  have left := d.sameRoom_move fun _ => 0
  have right := e.sameRoom_move fun _ => 0
  have nestings := congrArg Expr.nesting same
  have heights := congrArg Expr.height same
  exact ⟨left.nesting.symm.trans (nestings.trans right.nesting),
    left.height.symm.trans (heights.trans right.height)⟩

theorem exists_leaf {t : Token} (same : us.map Token.face = [t].map Token.face) :
    ∃ u, us = [u] ∧ u.kind = t.kind ∧ u.text = t.text := by
  obtain ⟨u, rfl, face⟩ := List.map_eq_singleton_iff.1 same
  exact ⟨u, rfl, Token.face_eq_iff.1 face⟩

/-- Tokens that are the same at other places are a phrase of the same level, with the same tree
but for the places. -/
theorem Derives.of_faces {level : Level} {e : Expr} (h : Derives level ts e)
    (same : us.map Token.face = ts.map Token.face) :
    ∃ d, Derives level us d ∧ d.unplaced = e.unplaced := by
  induction h generalizing us with
  | number kind =>
    obtain ⟨u, rfl, kind', text⟩ := exists_leaf same
    exact ⟨_, .number (kind'.trans kind), by rw [text]; rfl⟩
  | text kind =>
    obtain ⟨u, rfl, kind', text⟩ := exists_leaf same
    exact ⟨_, .text (kind'.trans kind), by rw [text]; rfl⟩
  | truth kind word =>
    obtain ⟨u, rfl, kind', text⟩ := exists_leaf same
    exact ⟨_, .truth (kind'.trans kind) (text ▸ word), by rw [text]; rfl⟩
  | cell kind word key =>
    obtain ⟨u, rfl, kind', text⟩ := exists_leaf same
    exact ⟨_, .cell (kind'.trans kind) (text ▸ word) (text ▸ key), by rw [text]; rfl⟩
  | name kind word key =>
    obtain ⟨u, rfl, kind', text⟩ := exists_leaf same
    exact ⟨_, .name (kind'.trans kind) (text ▸ word) (text ▸ key), by rw [text]; rfl⟩
  | @group opening closing ts e opens inner closes ih =>
    rw [List.cons_append, List.map_cons, List.map_append] at same
    obtain ⟨o, us, rfl, first, later⟩ := List.map_eq_cons_iff.1 same
    obtain ⟨us, cl, rfl, middle, last⟩ := List.map_eq_append_iff.1 later
    obtain ⟨c, rfl, kind, _⟩ := exists_leaf last
    obtain ⟨d, derives, tree⟩ := ih middle
    have opens' := (Token.face_eq_iff.1 first).1.trans opens
    refine ⟨_, .group opens' derives (kind.trans closes), ?_⟩
    exact congrArg (Expr.group 0 · 0) tree
  | operand proper inner ih =>
    obtain ⟨d, derives, tree⟩ := ih same
    exact ⟨d, .operand proper derives, tree⟩
  | @operation level ts ts' t op left right sign kind first second ihl ihr =>
    rw [List.map_append, List.map_cons] at same
    obtain ⟨us, vs, rfl, before, after⟩ := List.map_eq_append_iff.1 same
    obtain ⟨u, vs, rfl, middle, after⟩ := List.map_eq_cons_iff.1 after
    obtain ⟨d, derives, tree⟩ := ihl before
    obtain ⟨d', derives', tree'⟩ := ihr after
    have kind' := (Token.face_eq_iff.1 middle).1.trans kind
    refine ⟨_, .operation sign kind' derives derives', ?_⟩
    exact congrArg₂ (Expr.binary op 0) tree tree'
  | @percent ts t e kind inner ih =>
    rw [List.map_append] at same
    obtain ⟨us, vs, rfl, before, after⟩ := List.map_eq_append_iff.1 same
    obtain ⟨u, rfl, kind', _⟩ := exists_leaf after
    obtain ⟨d, derives, tree⟩ := ih before
    refine ⟨_, .percent (kind'.trans kind) derives, ?_⟩
    exact congrArg (Expr.percent · 0) tree

/-! ## Formulas -/

/-- A text whose tokens are an equals sign and a phrase, at any places, is a formula with its
tree. -/
theorem Derives.exists_parse {e : Expr} (h : Derives .compare ts e) {text : String} {limit : Limit}
    (fits : limit.Allows e) (starts : text.toList.head? = some '=')
    (scanned : scan text = .ok us)
    (same : us.map Token.face = (Symbol.equal.token 0 :: ts).map Token.face) :
    ∃ f, parse text limit = .ok f ∧ f.body.unplaced = e.unplaced := by
  obtain ⟨rest, rfl⟩ := scan_sign starts scanned
  obtain ⟨d, derives, tree⟩ := h.of_faces (List.cons.inj same).2
  have room := (Expr.sameRoom_of_unplaced tree).allows fits
  exact ⟨⟨text, d⟩, parse_eq_ok_iff.2 ⟨rfl, starts, rest, scanned, derives, room⟩, tree⟩

/-- Of two texts with the same tokens, each at its places, the one is read where the other is. -/
theorem exists_parse_of_faces {text text' : String} {limit : Limit} {f : Formula}
    (parsed : parse text limit = .ok f) (scanned : scan text = .ok ts)
    (starts : text'.toList.head? = some '=') (scanned' : scan text' = .ok us)
    (same : us.map Token.face = ts.map Token.face) :
    ∃ g, parse text' limit = .ok g ∧ g.body.unplaced = f.body.unplaced := by
  obtain ⟨_, _, tokens, found, derives, fits⟩ := parse_eq_ok_iff.1 parsed
  cases scanned.symm.trans found
  exact derives.exists_parse fits starts scanned' same

theorem Spaced.head?_eq {w : String} {words : List String} (h : Spaced (w :: words) cs)
    (full : w.toList ≠ []) : cs.head? = w.toList.head? := by
  obtain ⟨c, r, chars⟩ := List.exists_cons_of_ne_nil full
  cases h with
  | word => rw [chars]; rfl

/-- Blanks between tokens do not count. The tokens of a text can be written with any blanks
between every two of them, and any or none after the last, and the scanner finds the same
tokens. A text that starts with an equals sign does so then, and both are read as formulas or
neither is. Their trees are the same but for the places. -/
theorem blanks_between_tokens_do_not_count {text text' : String} (scanned : scan text = .ok ts)
    (spaced : Spaced (ts.map (·.text)) text'.toList) :
    (∃ us, scan text' = .ok us ∧ us.map Token.face = ts.map Token.face) ∧
    (text.toList.head? = some '=' → text'.toList.head? = some '=' ∧ ∀ limit,
      ((∃ f, parse text limit = .ok f) ↔ ∃ g, parse text' limit = .ok g) ∧
      ∀ f g, parse text limit = .ok f → parse text' limit = .ok g →
        g.body.unplaced = f.body.unplaced) := by
  have lone := (scanned_of_scanFrom scanned).lone
  obtain ⟨us, found, same⟩ := spaced.exists_scanned lone rfl 0
  have scanned' : scan text' = .ok us := scanned_iff.1 found
  refine ⟨⟨us, scanned', same⟩, fun starts => ?_⟩
  have starts' : text'.toList.head? = some '=' := by
    obtain ⟨rest, rfl⟩ := scan_sign starts scanned
    exact spaced.head?_eq (by decide)
  refine ⟨starts', fun limit => ⟨⟨?_, ?_⟩, ?_⟩⟩
  · rintro ⟨f, parsed⟩
    obtain ⟨g, again, _⟩ := exists_parse_of_faces parsed scanned starts' scanned' same
    exact ⟨g, again⟩
  · rintro ⟨g, parsed⟩
    obtain ⟨f, again, _⟩ := exists_parse_of_faces parsed scanned' starts scanned same.symm
    exact ⟨f, again⟩
  · intro f g parsed parsed'
    obtain ⟨g', again, tree⟩ := exists_parse_of_faces parsed scanned starts' scanned' same
    cases parsed'.symm.trans again
    exact tree

/-- Blanks of several kinds between a number that ends in a point, a sign of two characters and
a text of one quote. -/
theorem blanks_between_tokens_do_not_count_of_a_quote :
    ∃ ts, scan "=1.<>\"\"\"\"" = .ok ts ∧
      Spaced (ts.map (·.text)) "=\t1.\u00a0<> \n\"\"\"\" ".toList ∧
      ∃ us, scan "=\t1.\u00a0<> \n\"\"\"\" " = .ok us ∧ us.map Token.face = ts.map Token.face ∧
        ∃ f g, parse "=1.<>\"\"\"\"" usualLimit = .ok f ∧
          parse "=\t1.\u00a0<> \n\"\"\"\" " usualLimit = .ok g ∧
          g.body.unplaced = f.body.unplaced := by
  have words : (scan "=1.<>\"\"\"\"").toOption.map (·.map (·.text)) =
      some ["=", "1.", "<>", "\"\"\"\""] := by
    decide +kernel
  obtain ⟨ts, found, texts⟩ := Option.map_eq_some_iff.1 words
  have scanned := eq_ok_of_toOption found
  have spaced : Spaced ["=", "1.", "<>", "\"\"\"\""] ("=".toList ++ (['\t'] ++ ("1.".toList ++
      (['\u00a0'] ++ ("<>".toList ++ ([' ', '\n'] ++ ("\"\"\"\"".toList ++ ([' '] ++ [])))))))) :=
    .word (List.all_eq_true.1 (by decide)) (by decide) <|
      .word (List.all_eq_true.1 (by decide)) (by decide) <|
      .word (List.all_eq_true.1 (by decide)) (by decide) <|
      .word (List.all_eq_true.1 (by decide)) (by decide) <| .done nofun
  have spaced : Spaced (ts.map (·.text)) "=\t1.\u00a0<> \n\"\"\"\" ".toList := texts ▸ spaced
  have parses : (parse "=1.<>\"\"\"\"" usualLimit).toOption.isSome = true := by decide +kernel
  obtain ⟨f, read⟩ := Option.isSome_iff_exists.1 parses
  have parsed := eq_ok_of_toOption read
  obtain ⟨⟨us, scanned', same⟩, trees⟩ := blanks_between_tokens_do_not_count scanned spaced
  obtain ⟨either, tree⟩ := (trees rfl).2 usualLimit
  obtain ⟨g, parsed'⟩ := either.1 ⟨f, parsed⟩
  exact ⟨ts, scanned, spaced, us, scanned', same, f, g, parsed, parsed', tree f g parsed parsed'⟩

end Worksheet.Formula
