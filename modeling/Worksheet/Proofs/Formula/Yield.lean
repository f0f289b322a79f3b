-- What a formula is made of. Every token that the scanner finds is a lexeme, written as its kind
-- says, and the cells that an outline lists are the cells of the expression.
import Worksheet.Formula.Outline
import Worksheet.Formula.Parser
import Worksheet.Proofs.Formula.Numerals

namespace Worksheet.Formula

open Worksheet.Text (upper)

theorem scanFrom_nil (pos skip : Nat) : scanFrom pos skip [] = .ok [] := by rfl

theorem scanFrom_skip (pos skip : Nat) (c : Char) (r : List Char) :
    scanFrom pos (skip + 1) (c :: r) = scanFrom (pos + 1) skip r := by rfl

theorem scanFrom_cons (pos : Nat) (c : Char) (r : List Char) :
    scanFrom pos 0 (c :: r) =
      match lexeme? (c :: r) with
      | none => .error (.strayChar c pos)
      | some ⟨none, length⟩ => scanFrom (pos + 1) (length - 1) r
      | some ⟨some kind, length⟩ => (do
        let tokens ← scanFrom (pos + 1) (length - 1) r
        .ok (⟨kind, .ofList ((c :: r).take length), pos⟩ :: tokens)) := by rfl

/-- Every token is a lexeme: what the scanner takes off the front of some rest of the text. -/
theorem scanFrom_lexemes {pos skip : Nat} {cs : List Char} {tokens : List Token}
    (h : scanFrom pos skip cs = .ok tokens) :
    ∀ t ∈ tokens, ∃ rest length, lexeme? rest = some ⟨some t.kind, length⟩ ∧
      t.text = .ofList (rest.take length) := by
  induction cs generalizing pos skip tokens with
  | nil =>
    rw [scanFrom_nil] at h
    cases h
    exact fun t ht => nomatch ht
  | cons c r ih =>
    cases skip with
    | succ skip =>
      rw [scanFrom_skip] at h
      exact ih h
    | zero =>
      rw [scanFrom_cons] at h
      split at h
      · cases h
      · exact ih h
      · rename_i kind length found
        rcases scanned : scanFrom (pos + 1) (length - 1) r with _ | later <;> rw [scanned] at h
        · cases h
        cases h
        intro t ht
        rcases List.mem_cons.1 ht with rfl | ht
        · exact ⟨c :: r, length, found, rfl⟩
        · exact ih scanned t ht

theorem symbol?_text {cs : List Char} {s : Symbol} (h : symbol? cs = some s) :
    String.ofList (cs.take s.text.length) = s.text := by
  unfold symbol? at h
  split at h <;> cases h <;> rfl

/-- A token is written as its kind says: a symbol in its own characters, a number so that it
stands for a double. -/
structure Token.Written (t : Token) : Prop where
  symbol : ∀ s, t.kind = .symbol s → t.text = s.text
  number : t.kind = .number → (Number.read? t.text).isSome = true

theorem lexeme?_written {cs : List Char} {kind : TokenKind} {length start : Nat}
    (h : lexeme? cs = some ⟨some kind, length⟩) :
    Token.Written ⟨kind, .ofList (cs.take length), start⟩ := by
  unfold lexeme? at h
  split at h
  · cases h
  split at h
  · rename_i some
    cases h
    exact ⟨fun _ => nofun, fun _ => read?_number some⟩
  split at h
  · cases h
    exact ⟨fun _ => nofun, nofun⟩
  split at h
  · cases h
    exact ⟨fun _ => nofun, nofun⟩
  · obtain ⟨s, found, same⟩ := Option.map_eq_some_iff.1 h
    cases same
    refine ⟨fun _ hs => ?_, nofun⟩
    cases hs
    exact symbol?_text found

theorem scan_written {s : String} {tokens : List Token} (h : scan s = .ok tokens) :
    ∀ t ∈ tokens, t.Written := by
  intro t ht
  obtain ⟨rest, length, found, text⟩ := scanFrom_lexemes h t ht
  have written : Token.Written ⟨t.kind, .ofList (rest.take length), t.start⟩ :=
    lexeme?_written found
  rw [← text] at written
  exact written

theorem Token.eq_token {t : Token} (h : t.Written) {s : Symbol} (kind : t.kind = .symbol s) :
    t = s.token t.start := by
  obtain ⟨k, text, start⟩ := t
  simp only at kind
  subst kind
  have same : text = s.text := h.symbol s rfl
  rw [same]
  rfl

theorem Token.kind_of_operator? {t : Token} {rank : Nat} {op : BinaryOp}
    (h : t.operator? rank = some op) : t.kind = .symbol op.symbol := by
  unfold operator? at h
  split at h
  · rename_i s kind
    rw [kind, Symbol.operator?_eq_some.1 (Option.filter_eq_some_iff.1 h).1]
  · cases h

theorem Part.cell?_atom (a : Atom) :
    (Part.expr (.atom a)).cell? = if a.kind = .cell then some a else none := rfl

theorem filterMap_outline (e : Expr) (depth : Nat) :
    (e.outline depth).filterMap (fun p => p.1.cell?) = e.cells := by
  induction e generalizing depth with
  | atom a =>
    rw [Expr.outline, List.filterMap_cons, Part.cell?_atom, Expr.cells]
    by_cases cell : a.kind = .cell <;> simp [cell]
  | group o inner c ih =>
    have opened : (Part.opening o).cell? = none := rfl
    have closed : (Part.closing c).cell? = none := rfl
    have group : (Part.expr (.group o inner c)).cell? = none := rfl
    simp only [Expr.outline, List.filterMap_cons, List.filterMap_append, List.filterMap_nil, opened,
      closed, group, ih, List.append_nil, Expr.cells]
  | percent operand sign ih =>
    have percent : (Part.expr (.percent operand sign)).cell? = none := rfl
    simp only [Expr.outline, List.filterMap_cons, percent, ih, Expr.cells]
  | binary op sign left right ihl ihr =>
    have binary : (Part.expr (.binary op sign left right)).cell? = none := rfl
    simp only [Expr.outline, List.filterMap_cons, List.filterMap_append, binary, ihl, ihr,
      Expr.cells]

theorem cells_eq (f : Formula) : f.cells = f.body.cells := by
  have whole : (Part.formula f).cell? = none := rfl
  have sign : Part.sign.cell? = none := rfl
  rw [cells, parts, walk_eq_outline]
  simp only [Part.outline, List.filterMap_cons, whole, sign, filterMap_outline]

end Worksheet.Formula
