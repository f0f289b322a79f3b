-- Where the parts of a formula stand. The span of a part lies inside that of the part which it is
-- made for, and spans beside each other are in order. What stands in the span of an expression is
-- read as that expression again, from the start of a formula of its own.
import Worksheet.Proofs.Formula.Places

namespace Worksheet.Formula

/-! ## The parts of an expression -/

theorem Symbol.stop_token {s : Symbol} (single : s.text.length = 1) (pos : Nat) :
    (s.token pos).stop = pos + 1 :=
  congrArg (pos + ·) single

theorem Expr.exists_first (e : Expr) : ∃ t rest, e.tokens = t :: rest ∧ t.start = e.start := by
  induction e with
  | atom a => exact ⟨a.token, [], rfl, rfl⟩
  | group o inner c => exact ⟨Symbol.opening.token o, _, rfl, rfl⟩
  | percent operand sign ih =>
    obtain ⟨t, rest, tokens, start⟩ := ih
    exact ⟨t, _, by rw [Expr.tokens, tokens, List.cons_append], start⟩
  | binary op sign left right ihl ihr =>
    obtain ⟨t, rest, tokens, start⟩ := ihl
    exact ⟨t, _, by rw [Expr.tokens, tokens, List.cons_append], start⟩

theorem Expr.exists_last (e : Expr) : ∃ rest t, e.tokens = rest ++ [t] ∧ t.stop = e.stop := by
  induction e with
  | atom a => exact ⟨[], a.token, rfl, rfl⟩
  | group o inner c => exact ⟨_, Symbol.closing.token c, rfl, Symbol.stop_token (by decide) c⟩
  | percent operand sign => exact ⟨_, Symbol.percent.token sign, rfl, Symbol.stop_token (by decide) sign⟩
  | binary op sign left right ihl ihr =>
    obtain ⟨rest, t, tokens, stop⟩ := ihr
    refine ⟨left.tokens ++ op.symbol.token sign :: rest, t, ?_, stop⟩
    rw [Expr.tokens, tokens]
    simp

variable {e : Expr} {ts : List Token} {t : Token}

theorem InOrder.start_lt_stop (h : InOrder e.tokens) : e.start < e.stop := by
  obtain ⟨t, rest, tokens, start⟩ := e.exists_first
  obtain ⟨rest', u, tokens', stop⟩ := e.exists_last
  have first := h.full t (by simp [tokens])
  have last := h.full u (by simp [tokens'])
  -- The first token is the last one, or it comes before it.
  have between : t.stop ≤ u.stop := by
    rcases rest' with _ | ⟨v, rest'⟩
    · rw [tokens] at tokens'
      cases tokens'
      exact Nat.le_refl _
    · have apart := h.apart
      rw [tokens'] at apart
      rw [tokens] at tokens'
      cases tokens'
      have later := (List.pairwise_cons.1 apart).1 u (by simp)
      omega
  omega

theorem InOrder.start_lt_stop_of (h : InOrder ts) (part : e.tokens.Sublist ts) :
    e.start < e.stop :=
  (h.sublist part).start_lt_stop

theorem InOrder.stop_le (h : InOrder (e.tokens ++ ts)) (member : t ∈ ts) : e.stop ≤ t.start := by
  obtain ⟨rest, u, tokens, stop⟩ := e.exists_last
  have apart := (List.pairwise_append.1 h.apart).2.2 u (by simp [tokens]) t member
  omega

theorem InOrder.le_start (h : InOrder (ts ++ e.tokens)) (member : t ∈ ts) : t.stop ≤ e.start := by
  obtain ⟨u, rest, tokens, start⟩ := e.exists_first
  have apart := (List.pairwise_append.1 h.apart).2.2 t member u (by simp [tokens])
  omega

/-- The spans of what a part is made of lie inside its own and one after the other. -/
structure Part.Nested (p : Part) : Prop where
  inside : ∀ q ∈ p.children, p.start ≤ q.start ∧ q.start < q.stop ∧ q.stop ≤ p.stop
  apart : p.children.Pairwise fun q r => q.stop ≤ r.start

theorem nested_of_childless {p : Part} (h : p.children = []) : p.Nested := by
  constructor <;> simp [h]

theorem InOrder.nested (h : InOrder e.tokens) : (Part.expr e).Nested := by
  rcases e with a | ⟨o, inner, c⟩ | ⟨operand, sign⟩ | ⟨op, sign, left, right⟩
  · exact nested_of_childless rfl
  · have before : o + 1 ≤ inner.start := by
      have front : InOrder ([Symbol.opening.token o] ++ inner.tokens) :=
        h.sublist (by simp [Expr.tokens])
      have apart := front.le_start (List.mem_singleton_self _)
      rwa [Symbol.stop_token (by decide)] at apart
    have after : inner.stop ≤ c := by
      have back : InOrder (inner.tokens ++ [Symbol.closing.token c]) :=
        h.sublist (by simp [Expr.tokens])
      exact back.stop_le (List.mem_singleton_self _)
    have full : inner.start < inner.stop := h.start_lt_stop_of (by simp [Expr.tokens])
    constructor
    · simp [Part.children, Part.start, Part.stop, Expr.start, Expr.stop]
      omega
    · simp [Part.children, Part.start, Part.stop]
      omega
  · have after : operand.stop ≤ sign := h.stop_le (List.mem_singleton_self _)
    have full : operand.start < operand.stop := h.start_lt_stop_of (by simp [Expr.tokens])
    constructor
    · simp [Part.children, Part.start, Part.stop, Expr.start, Expr.stop]
      omega
    · simp [Part.children]
  · have before : left.stop ≤ sign := h.stop_le (List.mem_cons_self ..)
    have after : sign + op.symbol.text.length ≤ right.start := by
      have back : InOrder ([op.symbol.token sign] ++ right.tokens) :=
        h.sublist (by simp [Expr.tokens])
      exact back.le_start (List.mem_singleton_self _)
    have fullL : left.start < left.stop := h.start_lt_stop_of (by simp [Expr.tokens])
    have fullR : right.start < right.stop := h.start_lt_stop_of (by simp [Expr.tokens])
    constructor
    · simp [Part.children, Part.start, Part.stop, Expr.start, Expr.stop]
      omega
    · simp [Part.children, Part.start, Part.stop]
      omega

/-! ## Parts and places -/

theorem mem_parts {f : Formula} {p : Part} :
    p ∈ f.parts.map Prod.fst ↔
      p = .formula f ∨ p = .sign ∨ p ∈ (f.body.outline 1).map Prod.fst := by
  rw [parts, walk_eq_outline, Part.outline]
  simp

def Expr.parentheses : Expr → List Part
  | .group opening _ closing => [.opening opening, .closing closing]
  | _ => []

/-- Every part of an expression is an expression at a place of it, or a mark of one. -/
theorem exists_of_mem_outline {x : Expr} {depth : Nat} {p : Part}
    (member : p ∈ (x.outline depth).map Prod.fst) :
    ∃ (place : Place) (e : Expr), x = place.fill e ∧ (p = .expr e ∨ p ∈ e.parentheses) := by
  induction x generalizing depth with
  | atom a =>
    simp only [Expr.outline, List.map_cons, List.map_nil, List.mem_singleton] at member
    exact ⟨.here, .atom a, rfl, Or.inl member⟩
  | group o inner c ih =>
    simp only [Expr.outline, List.map_cons, List.map_append, List.mem_cons, List.mem_append,
      List.map_nil, List.not_mem_nil, or_false] at member
    rcases member with same | (mark | member) | mark
    · exact ⟨.here, .group o inner c, rfl, Or.inl same⟩
    · exact ⟨.here, .group o inner c, rfl, Or.inr (by simp [Expr.parentheses, mark])⟩
    · obtain ⟨place, e, rfl, part⟩ := ih member
      exact ⟨.inGroup o place c, e, rfl, part⟩
    · exact ⟨.here, .group o inner c, rfl, Or.inr (by simp [Expr.parentheses, mark])⟩
  | percent operand sign ih =>
    simp only [Expr.outline, List.map_cons, List.mem_cons] at member
    rcases member with same | member
    · exact ⟨.here, .percent operand sign, rfl, Or.inl same⟩
    · obtain ⟨place, e, rfl, part⟩ := ih member
      exact ⟨.underPercent place sign, e, rfl, part⟩
  | binary op sign left right ihl ihr =>
    simp only [Expr.outline, List.map_cons, List.map_append, List.mem_cons, List.mem_append]
      at member
    rcases member with same | member | member
    · exact ⟨.here, .binary op sign left right, rfl, Or.inl same⟩
    · obtain ⟨place, e, rfl, part⟩ := ihl member
      exact ⟨.onLeft op sign place right, e, rfl, part⟩
    · obtain ⟨place, e, rfl, part⟩ := ihr member
      exact ⟨.onRight op sign left place, e, rfl, part⟩

theorem mem_outline_fill (place : Place) (e : Expr) (depth : Nat) :
    Part.expr e ∈ ((place.fill e).outline depth).map Prod.fst := by
  induction place generalizing depth with
  | here => cases e <;> simp [Place.fill, Expr.outline]
  | inGroup o inner c ih => simp [Place.fill, Expr.outline, ih (depth + 1)]
  | underPercent operand sign ih => simp [Place.fill, Expr.outline, ih (depth + 1)]
  | onLeft op sign left right ih => simp [Place.fill, Expr.outline, ih (depth + 1)]
  | onRight op sign left right ih => simp [Place.fill, Expr.outline, ih (depth + 1)]

/-- The expressions among the parts of a formula are those that stand at its places. -/
theorem expr_mem_parts_iff {f : Formula} :
    Part.expr e ∈ f.parts.map Prod.fst ↔ ∃ place : Place, f.body = place.fill e := by
  constructor
  · intro member
    have inside : Part.expr e ∈ (f.body.outline 1).map Prod.fst := by
      simpa using mem_parts.1 member
    obtain ⟨place, d, stands, part⟩ := exists_of_mem_outline inside
    refine ⟨place, ?_⟩
    rcases part with same | mark
    · cases same
      exact stands
    · cases d <;> simp [Expr.parentheses] at mark
  · rintro ⟨place, stands⟩
    exact mem_parts.2 (Or.inr (Or.inr (stands ▸ mem_outline_fill place e 1)))

theorem tokens_sublist_fill (place : Place) (e : Expr) :
    e.tokens.Sublist (place.fill e).tokens := by
  induction place with
  | here => exact .refl _
  | inGroup o inner c ih => exact (ih.trans (List.sublist_append_left ..)).cons _
  | underPercent operand sign ih => exact ih.trans (List.sublist_append_left ..)
  | onLeft op sign left right ih => exact ih.trans (List.sublist_append_left ..)
  | onRight op sign left right ih => exact (ih.cons _).trans (List.sublist_append_right ..)

theorem exists_token_of_childless {x : Expr} {depth : Nat} {p : Part}
    (member : p ∈ (x.outline depth).map Prod.fst) (childless : p.children = []) :
    ∃ t ∈ x.tokens, t.text = p.ownText ∧ t.start = p.start ∧ t.stop = p.stop := by
  obtain ⟨place, e, rfl, part⟩ := exists_of_mem_outline member
  have inside := (tokens_sublist_fill place e).subset
  rcases e with a | ⟨o, inner, c⟩ | ⟨operand, sign⟩ | ⟨op, sign, left, right⟩
  case atom =>
    obtain rfl : p = .expr (.atom a) := by simpa [Expr.parentheses] using part
    exact ⟨a.token, inside (List.mem_singleton_self _), rfl, rfl, rfl⟩
  case group =>
    simp only [Expr.parentheses, List.mem_cons, List.not_mem_nil, or_false] at part
    rcases part with rfl | rfl | rfl
    · cases childless
    · exact ⟨Symbol.opening.token o, inside (by simp [Expr.tokens]), rfl, rfl,
        Symbol.stop_token (by decide) o⟩
    · exact ⟨Symbol.closing.token c, inside (by simp [Expr.tokens]), rfl, rfl,
        Symbol.stop_token (by decide) c⟩
  all_goals
    rcases part with rfl | mark
    · cases childless
    · cases mark

/-! ## Cutting out an expression -/

/-- How a text is read that has an expression at a place of its formula: in front of the expression
stands the equals sign with some tokens, then come its own tokens, and then some more. -/
structure Around (text : String) (place : Place) (e : Expr) (before inside after : List Char)
    (front back : List Token) : Prop where
  text : text.toList = before ++ (inside ++ after)
  start : e.start = before.length
  stop : e.stop = e.start + inside.length
  scannedFront : Scanned 0 before (Symbol.equal.token 0 :: front)
  scannedInside : Scanned e.start inside e.tokens
  scannedBack : Scanned e.stop after back
  derives : Derives .compare e.tokens e
  framed : Framed .compare place front back

/-- The tokens of an expression stand in its span, and no others do. -/
theorem Scanned.cut_around {pos : Nat} {cs : List Char} {front back : List Token}
    (h : Scanned pos cs (front ++ (e.tokens ++ back))) :
    ∃ before inside after, cs = before ++ (inside ++ after) ∧ e.start = pos + before.length ∧
      e.stop = e.start + inside.length ∧ Scanned pos before front ∧
      Scanned e.start inside e.tokens ∧ Scanned e.stop after back := by
  obtain ⟨t, rest, tokens, start⟩ := e.exists_first
  obtain ⟨rest', u, tokens', stop⟩ := e.exists_last
  have first : front ++ (e.tokens ++ back) = front ++ t :: (rest ++ back) := by rw [tokens]; rfl
  have last : t :: (rest ++ back) = rest' ++ u :: back := by
    rw [← List.cons_append, ← tokens, tokens']
    simp
  rw [first] at h
  obtain ⟨before, later, rfl, begins, scannedFront, h⟩ := h.cut_before
  rw [last] at h
  obtain ⟨inside, after, rfl, ends, scannedInside, scannedBack⟩ := h.cut_after
  rw [start] at begins ends scannedInside
  rw [stop] at ends scannedBack
  rw [← tokens'] at scannedInside
  exact ⟨before, inside, after, rfl, begins, ends, scannedFront, scannedInside, scannedBack⟩

theorem exists_around {text : String} {limit : Limit} {f : Formula} {place : Place}
    (parsed : parse text limit = .ok f) (stands : f.body = place.fill e) :
    ∃ before inside after front back, Around text place e before inside after front back := by
  obtain ⟨_, _, tokens, scanned, derives, _⟩ := parse_eq_ok_iff.1 parsed
  rw [stands] at derives
  obtain ⟨front, inner, back, rfl, inner_derives, framed⟩ := derives.at_place
  have written : ∀ t ∈ inner, t.Written := fun t member =>
    scan_written scanned t (by simp [member])
  obtain rfl := inner_derives.tokens_eq written
  have whole : Symbol.equal.token 0 :: (front ++ e.tokens ++ back) =
      (Symbol.equal.token 0 :: front) ++ (e.tokens ++ back) := by simp
  rw [whole] at scanned
  obtain ⟨before, inside, after, chars, start, stop, first, middle, last⟩ :=
    (scanned_of_scanFrom scanned).cut_around
  rw [Nat.zero_add] at start
  exact ⟨before, inside, after, front, back, chars, start, stop, first, middle, last,
    inner_derives, framed⟩

theorem Around.slice_eq {text : String} {place : Place} {before inside after : List Char}
    {front back : List Token} (h : Around text place e before inside after front back) :
    slice text.toList e.start e.stop = inside := by
  rw [h.text, h.stop, h.start, slice_append]

/-- What stands in the span of an expression is read as the expression, at the start of a formula. -/
theorem parse_slice {text : String} {limit : Limit} {f : Formula} {place : Place}
    (parsed : parse text limit = .ok f) (stands : f.body = place.fill e) :
    ∃ g, parse (.ofList ('=' :: slice text.toList e.start e.stop)) limit = .ok g ∧
      g.body = e.move fun pos => pos + 1 - e.start := by
  obtain ⟨_, _, _, _, _, fits⟩ := parse_eq_ok_iff.1 parsed
  obtain ⟨before, inside, after, front, back, around⟩ := exists_around parsed stands
  rw [around.slice_eq]
  have moved := around.scannedInside.move (m := fun pos => pos + 1 - e.start) (by intro n; omega)
  rw [Nat.add_sub_cancel_left] at moved
  have inside : limit.Allows e := Place.allows_of_fill (stands ▸ fits)
  have room := (e.sameRoom_move fun pos => pos + 1 - e.start).allows inside
  refine ⟨⟨_, _⟩, parse_eq_ok_iff.2 ⟨rfl, ?_, _, ?_, around.derives.move _, room⟩, rfl⟩
  · rw [String.toList_ofList]
    rfl
  · exact (Scanned.symbol moved rfl rfl).scan_eq String.toList_ofList

/-! ## Formulas -/

variable {text : String} {limit : Limit} {f : Formula} {p : Part}

theorem nested_formula (parsed : parse text limit = .ok f) : (Part.formula f).Nested := by
  obtain ⟨same, _⟩ := parse_eq_ok_iff.1 parsed
  have whole : f.body = Place.here.fill f.body := rfl
  obtain ⟨before, inside, after, front, back, around⟩ := exists_around parsed whole
  have sign := (around.scannedFront.within (List.mem_cons_self ..)).2.2
  rw [Symbol.stop_token (by decide)] at sign
  have full := around.scannedInside.inOrder.start_lt_stop
  have length : f.text.length = before.length + (inside.length + after.length) := by
    rw [same, ← String.length_toList, around.text, List.length_append, List.length_append]
  have start := around.start
  have stop := around.stop
  constructor
  · simp [Part.children, Part.start, Part.stop]
    omega
  · simp [Part.children, Part.start, Part.stop]
    omega

theorem nested_of_mem_parts (parsed : parse text limit = .ok f)
    (member : p ∈ f.parts.map Prod.fst) : p.Nested := by
  rcases mem_parts.1 member with rfl | rfl | inside
  · exact nested_formula parsed
  · exact nested_of_childless rfl
  · obtain ⟨place, e, stands, rfl | mark⟩ := exists_of_mem_outline inside
    · obtain ⟨_, _, _, _, _, around⟩ := exists_around parsed stands
      exact around.scannedInside.inOrder.nested
    · refine nested_of_childless ?_
      cases e <;> simp [Expr.parentheses] at mark
      rcases mark with rfl | rfl <;> rfl

theorem slice_of_leaf (parsed : parse text limit = .ok f) (member : p ∈ f.parts.map Prod.fst)
    (leaf : p.children = []) : p.ownText.toList = slice text.toList p.start p.stop := by
  obtain ⟨_, starts, _⟩ := parse_eq_ok_iff.1 parsed
  obtain ⟨_, tokens, scanned, yield⟩ := tokens_of_parse parsed
  obtain ⟨rest, rfl⟩ := scan_sign starts scanned
  have texts := fun t => (scanned_of_scanFrom scanned).slice_eq (t := t)
  rcases mem_parts.1 member with rfl | rfl | inside
  · cases leaf
  · exact (texts (Symbol.equal.token 0) (List.mem_cons_self ..)).symm
  · obtain ⟨t, among, text, start, stop⟩ := exists_token_of_childless inside leaf
    rw [← text, ← start, ← stop]
    refine (texts t (List.mem_cons_of_mem _ ?_)).symm
    rw [yield] at among
    exact among

/-- Every span of a formula is the text of its part. The formula spans the whole text, the spans of
what a part is made of have some length, lie inside its own and come one after the other, and a leaf
is what stands in its span. What stands in the span of an expression is read as a formula of its
own, under the same limit, and its tree is the expression, with all positions counted from there. -/
theorem spans_hold_their_parts (parsed : parse text limit = .ok f) :
    (Part.formula f).start = 0 ∧ (Part.formula f).stop = text.length ∧
    ∀ p ∈ f.parts.map Prod.fst,
      (∀ q ∈ p.children, p.start ≤ q.start ∧ q.start < q.stop ∧ q.stop ≤ p.stop) ∧
      (p.children.Pairwise fun q r => q.stop ≤ r.start) ∧
      (p.children = [] → p.ownText.toList = slice text.toList p.start p.stop) ∧
      ∀ e, p = .expr e → ∃ g,
        parse (.ofList ('=' :: slice text.toList e.start e.stop)) limit = .ok g ∧
        g.body = e.move fun pos => pos + 1 - e.start := by
  refine ⟨rfl, congrArg String.length (parse_eq_ok_iff.1 parsed).1, fun p member => ?_⟩
  have nested := nested_of_mem_parts parsed member
  refine ⟨nested.inside, nested.apart, slice_of_leaf parsed member, ?_⟩
  rintro e rfl
  obtain ⟨place, stands⟩ := expr_mem_parts_iff.1 member
  exact parse_slice parsed stands

/-- A sum among blanks, of a cell and a text with a quote in it, is read on its own. -/
theorem spans_hold_their_parts_of_a_sum :
    ∃ f, parse "= 2*( a1+\"x\"\"\" )%" usualLimit = .ok f ∧
      ∃ e, .expr e ∈ f.parts.map Prod.fst ∧ e.start = 6 ∧ e.stop = 14 ∧
        ∃ g, parse "=a1+\"x\"\"\"" usualLimit = .ok g ∧ g.body = e.move (· + 1 - 6) := by
  let sum : Expr := .binary .plus 8 (.atom ⟨.cell, "a1", 6⟩) (.atom ⟨.text, "\"x\"\"\"", 9⟩)
  have read : (parse "= 2*( a1+\"x\"\"\" )%" usualLimit).toOption.map (·.body) =
      some (.binary .times 3 (.atom ⟨.number, "2", 2⟩) (.percent (.group 4 sum 15) 16)) := by
    decide +kernel
  obtain ⟨f, found, body⟩ := Option.map_eq_some_iff.1 read
  have parsed := eq_ok_of_toOption found
  have member : Part.expr sum ∈ f.parts.map Prod.fst := expr_mem_parts_iff.2
    ⟨.onRight .times 3 (.atom ⟨.number, "2", 2⟩) (.underPercent (.inGroup 4 .here 15) 16), body⟩
  obtain ⟨g, again, moved⟩ := ((spans_hold_their_parts parsed).2.2 _ member).2.2.2 sum rfl
  have cut : String.ofList ('=' :: slice "= 2*( a1+\"x\"\"\" )%".toList sum.start sum.stop) =
      "=a1+\"x\"\"\"" := by
    decide +kernel
  exact ⟨f, parsed, sum, member, rfl, by decide, g, cut ▸ again, moved⟩

end Worksheet.Formula
