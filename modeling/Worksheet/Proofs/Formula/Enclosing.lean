-- Parentheses around an expression of a formula. Where there is room for one more group, they make
-- a group of it, wherever it stands, and the formula comes to the same.
import Worksheet.Proofs.Formula.Spans
import Worksheet.Proofs.Formula.Stack

namespace Worksheet.Formula

/-- The characters with parentheses around those from one position to another. -/
def enclosed (cs : List Char) (start stop : Nat) : List Char :=
  cs.take start ++ '(' :: (slice cs start stop ++ ')' :: cs.drop stop)

/-- Where a position is after that: between the parentheses one place further on, and after them
two. -/
def shifted (start stop pos : Nat) : Nat :=
  if pos < start then pos else if pos < stop then pos + 1 else pos + 2

theorem enclosed_append (before inside after : List Char) :
    enclosed (before ++ (inside ++ after)) before.length (before.length + inside.length) =
      before ++ '(' :: (inside ++ ')' :: after) := by
  have rest : (before ++ (inside ++ after)).drop (before.length + inside.length) = after := by
    rw [← List.append_assoc, ← List.length_append, List.drop_left]
  rw [enclosed, slice_append, List.take_left, rest]

theorem map_move_congr {ts : List Token} {m n : Nat → Nat}
    (same : ∀ t ∈ ts, m t.start = n t.start) : ts.map (Token.move m) = ts.map (Token.move n) :=
  List.map_congr_left fun t member =>
    congrArg (fun start => Token.mk t.kind t.text start) (same t member)

variable {text : String} {limit : Limit} {f : Formula} {place : Place} {e : Expr}
  {before inside after : List Char} {front back : List Token}

theorem Around.enclosed_eq (h : Around text place e before inside after front back) :
    enclosed text.toList e.start e.stop = before ++ '(' :: (inside ++ ')' :: after) := by
  rw [h.text, h.stop, h.start, enclosed_append]

/-- With parentheses put around its characters, an expression has their tokens around its own. -/
theorem Around.scanned_enclosed (h : Around text place e before inside after front back) :
    Scanned 0 (enclosed text.toList e.start e.stop) (Symbol.equal.token 0 ::
      (front.map (Token.move (shifted e.start e.stop)) ++ (Symbol.opening.token e.start ::
        e.tokens.map (Token.move (shifted e.start e.stop)) ++ [Symbol.closing.token (e.stop + 1)]) ++
          back.map (Token.move (shifted e.start e.stop)))) := by
  have frontStays : front.map (Token.move (shifted e.start e.stop)) = front := by
    have same : front.map (Token.move (shifted e.start e.stop)) = front.map (Token.move id) := by
      refine map_move_congr fun t member => if_pos ?_
      have within := h.scannedFront.within (List.mem_cons_of_mem _ member)
      have start := h.start
      omega
    exact same.trans (List.map_id front)
  have insideMoves : e.tokens.map (Token.move (shifted e.start e.stop)) =
      e.tokens.map (Token.move (· + 1)) := by
    refine map_move_congr fun t member => ?_
    have within := h.scannedInside.within member
    have stop := h.stop
    rw [shifted, if_neg (by omega), if_pos (by omega)]
  have backMoves : back.map (Token.move (shifted e.start e.stop)) = back.map (Token.move (· + 2)) := by
    refine map_move_congr fun t member => ?_
    have within := h.scannedBack.within member
    have stop := h.stop
    rw [shifted, if_neg (by omega), if_neg (by omega)]
  rw [frontStays, insideMoves, backMoves]
  -- From the end of the text to its front, one piece after the other.
  have last : Scanned (e.stop + 2) after (back.map (Token.move (· + 2))) :=
    h.scannedBack.move (m := (· + 2)) (by intro n; omega)
  have closing : Scanned (e.stop + 1) (')' :: after)
      (Symbol.closing.token (e.stop + 1) :: back.map (Token.move (· + 2))) := last.symbol rfl rfl
  have middle : Scanned (e.start + 1) inside (e.tokens.map (Token.move (· + 1))) :=
    h.scannedInside.move (m := (· + 1)) (by intro n; omega)
  have stop : e.start + 1 + inside.length = e.stop + 1 := by rw [h.stop]; omega
  have inner := middle.append divides_closing (by rw [stop]; exact closing)
  have opening := inner.symbol (c := '(') (s := .opening) rfl rfl
  have start : 0 + before.length = e.start := by rw [h.start, Nat.zero_add]
  have whole := h.scannedFront.append divides_opening (by rw [start]; exact opening)
  rw [h.enclosed_eq]
  simpa using whole

/-- The group at a place comes to what the expression in it comes to, and asks for the same cells,
also where both are moved. -/
theorem compute_enclosed (lookup : Lookup) (m : Nat → Nat) (place : Place) (e : Expr)
    (opening closing : Nat) :
    ((place.move m).fill (.group opening (e.move m) closing)).compute lookup =
      (place.fill e).compute lookup := by
  have inner : (Expr.group opening (e.move m) closing).value lookup = (e.move m).value lookup := rfl
  rw [Expr.compute_eq_value, Expr.compute_eq_value]
  calc ((place.move m).fill (.group opening (e.move m) closing)).value lookup
      = ((place.move m).fill (e.move m)).value lookup := Place.value_fill_congr inner _
    _ = ((place.fill e).move m).value lookup := by rw [Place.move_fill]
    _ = (place.fill e).value lookup := Expr.value_move ..

theorem sameRoom_enclosed (m : Nat → Nat) (place : Place) (e : Expr)
    (opening closing opening' closing' : Nat) :
    ((place.move m).fill (.group opening (e.move m) closing)).SameRoom
      (place.fill (.group opening' e closing')) := by
  have group : (Expr.group opening (e.move m) closing).SameRoom
      ((Expr.group opening' e closing').move m) := ⟨rfl, rfl⟩
  have filled := Place.sameRoom_fill group (place.move m)
  have moved := Expr.sameRoom_move m (place.fill (.group opening' e closing'))
  rw [← Place.move_fill] at filled
  exact ⟨filled.nesting.trans moved.nesting, filled.height.trans moved.height⟩

/-- Parentheses around an expression take at most nine calls more. -/
theorem Place.height_of_group (place : Place) (e : Expr) (opening closing : Nat) :
    (place.fill (.group opening e closing)).height ≤ (place.fill e).height + 9 := by
  induction place with
  | here => exact Nat.le_refl _
  | inGroup | underPercent | onLeft | onRight =>
    simp only [fill, Expr.height]
    omega

/-- The text with parentheses around an expression is read just where there is room for the group,
and then the tree has the group where the expression was. -/
theorem parse_enclosed_iff (parsed : parse text limit = .ok f) (stands : f.body = place.fill e)
    {g : Formula} :
    parse (.ofList (enclosed text.toList e.start e.stop)) limit = .ok g ↔
      g.text = .ofList (enclosed text.toList e.start e.stop) ∧
      g.body = (place.move (shifted e.start e.stop)).fill
        (.group e.start (e.move (shifted e.start e.stop)) (e.stop + 1)) ∧
      limit.Allows (place.fill (.group e.start e e.stop)) := by
  obtain ⟨_, starts, _⟩ := parse_eq_ok_iff.1 parsed
  obtain ⟨before, inside, after, front, back, around⟩ := exists_around parsed stands
  have opens : (Symbol.opening.token e.start).kind = .symbol .opening := rfl
  have closes : (Symbol.closing.token (e.stop + 1)).kind = .symbol .closing := rfl
  have group := Derives.group opens (around.derives.move (shifted e.start e.stop)) closes
  have derives := around.framed (shifted e.start e.stop) _ _ group
  have room := sameRoom_enclosed (shifted e.start e.stop) place e e.start (e.stop + 1) e.start e.stop
  have scanned := around.scanned_enclosed.scan_eq String.toList_ofList
  have starts' : (String.ofList (enclosed text.toList e.start e.stop)).toList.head? = some '=' := by
    have sign := (around.scannedFront.within (List.mem_cons_self ..)).2
    rw [around.text] at starts
    rw [String.toList_ofList, around.enclosed_eq]
    rcases before with _ | ⟨c, before⟩
    · simp at sign
      omega
    · exact starts
  rw [parse_eq_ok_iff]
  constructor
  · rintro ⟨same, _, tokens, scanned', derives', fits⟩
    cases scanned.symm.trans scanned'
    have tree := derives_unique derives' derives
    exact ⟨same, tree, ⟨room.nesting ▸ tree ▸ fits.nesting, room.height ▸ tree ▸ fits.height⟩⟩
  · rintro ⟨same, tree, fits⟩
    exact ⟨same, starts', _, scanned, tree ▸ derives, tree ▸ room.allows fits⟩

/-- Parentheses around an expression of a formula change nothing. Where there is room for the
group, the text with the parentheses put in is read, and its tree is the same, but for a group
around the expression and the places of what comes after a parenthesis. It comes to the same
under every look-up, and asks for the same cells in the same order. On the stack the group takes
nine calls at most. -/
theorem enclosing_changes_nothing (parsed : parse text limit = .ok f)
    (stands : f.body = place.fill e)
    (deep : (place.fill (.group e.start e e.stop)).nesting ≤ limit.depth.toNat)
    (high : (place.fill (.group e.start e e.stop)).height ≤ limit.stack) :
    ∃ g, parse (.ofList (enclosed text.toList e.start e.stop)) limit = .ok g ∧
      g.body = (place.move (shifted e.start e.stop)).fill
        (.group e.start (e.move (shifted e.start e.stop)) (e.stop + 1)) ∧
      (place.fill (.group e.start e e.stop)).height ≤ f.body.height + 9 ∧
      ∀ lookup, g.outcome lookup = f.outcome lookup ∧
        (g.body.compute lookup).outcome = (f.body.compute lookup).outcome ∧
        (g.body.compute lookup).keys = (f.body.compute lookup).keys := by
  have taken := place.height_of_group e e.start e.stop
  rw [← stands] at taken
  refine ⟨⟨_, _⟩, (parse_enclosed_iff parsed stands).2 ⟨rfl, rfl, deep, high⟩, rfl, taken, ?_⟩
  intro lookup
  have same := compute_enclosed lookup (shifted e.start e.stop) place e e.start (e.stop + 1)
  rw [← stands] at same
  have comes := congrArg Reading.outcome same
  exact ⟨congrArg settle comes, comes, congrArg Reading.keys same⟩

/-- A percent sign in a product in a sum: its operand and it are put in parentheses. -/
theorem enclosing_changes_nothing_of_a_sum :
    ∃ f g, parse "=1+a1%*2" usualLimit = .ok f ∧ parse "=1+(a1%)*2" usualLimit = .ok g ∧
      g.body.nesting = 1 ∧ f.body.nesting = 0 ∧
      ∀ lookup, g.outcome lookup = f.outcome lookup ∧
        (g.body.compute lookup).keys = (f.body.compute lookup).keys := by
  let place : Place := .onRight .plus 2 (.atom ⟨.number, "1", 1⟩)
    (.onLeft .times 6 .here (.atom ⟨.number, "2", 7⟩))
  let e : Expr := .percent (.atom ⟨.cell, "a1", 3⟩) 5
  have read : (parse "=1+a1%*2" usualLimit).toOption.map (·.body) = some (place.fill e) := by
    decide +kernel
  obtain ⟨f, found, body⟩ := Option.map_eq_some_iff.1 read
  have parsed := eq_ok_of_toOption found
  obtain ⟨g, again, shape, _, same⟩ :=
    enclosing_changes_nothing parsed body (by decide) (by decide)
  have text : String.ofList (enclosed "=1+a1%*2".toList e.start e.stop) = "=1+(a1%)*2" := by
    decide +kernel
  refine ⟨f, g, parsed, text ▸ again, ?_, ?_, fun lookup => ⟨(same lookup).1, (same lookup).2.2⟩⟩
  · rw [shape]
    rfl
  · rw [body]
    rfl

/-- Fifty-four groups, each on the right of operators of every rank, with one more such expression in
the innermost. -/
def packed : String := heap 54 (ladder ++ ['1'])

/-- Parentheses around the whole of a formula that is packed like this are too much for the stack,
though the limit on groups lets them. -/
theorem enclosing_takes_the_last_calls :
    ∃ f, parse packed ⟨55, usualStack, by decide⟩ = .ok f ∧
      (Expr.group f.body.start f.body f.body.stop).nesting = 55 ∧
      ∃ cause, parse (.ofList (enclosed packed.toList f.body.start f.body.stop))
        ⟨55, usualStack, by decide⟩ = .error cause := by
  obtain ⟨body, ⟨starts, tokens, scanned, derives, peak⟩, nesting, height⟩ :=
    takes_ladder.isFormula_heap 54
  have formula : IsFormula 55 packed body :=
    ⟨starts, tokens, scanned, derives, Nat.le_succ_of_le peak⟩
  have fits : body.height ≤ usualStack := height ▸ (by decide)
  have parsed : parse packed ⟨55, usualStack, by decide⟩ = .ok ⟨_, body⟩ :=
    parse_eq_ok_iff_isFormula.2 ⟨rfl, formula, fits⟩
  refine ⟨_, parsed, congrArg (· + 1) nesting, ?_⟩
  rcases outcome : parse (.ofList (enclosed packed.toList body.start body.stop))
    ⟨55, usualStack, by decide⟩ with cause | g
  · exact ⟨cause, rfl⟩
  · have stands : body = Place.here.fill body := rfl
    have room := ((parse_enclosed_iff parsed stands).1 outcome).2.2.height
    have taken : (Expr.group body.start body body.stop).height = 1000 := congrArg (· + 9) height
    exact absurd (taken ▸ room) (by decide)

end Worksheet.Formula
