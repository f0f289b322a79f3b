-- Where a formula goes wrong. Every reader looks one token ahead and no further, whatever comes
-- later and however much more room there is; and the tokens before the one that it refuses are the
-- start of some phrase. So a text is refused at the first token that no formula goes on with.
import Worksheet.Proofs.Formula.Spacing

namespace Worksheet.Formula

open Worksheet.Text (isBlank)

/-! ## The starts of phrases -/

/-- Some more tokens, each of which can be written, make a phrase of the level of these, and there
is room for it. -/
def Begins (level : Level) (room calls : Nat) (front : List Token) : Prop :=
  ∃ back e, (∀ t ∈ back, t.Lone) ∧ Derives level (front ++ back) e ∧ e.Fits level room calls

variable {level : Level} {room calls : Nat} {front ts : List Token} {e left : Expr} {t : Token}

theorem Derives.begins (h : Derives level ts e) (fits : e.Fits level room calls) :
    Begins level room calls ts :=
  ⟨[], e, nofun, by rwa [List.append_nil], fits⟩

theorem begins_primary (enough : 3 ≤ calls) : Begins .primary room calls [] := by
  have alone : ∀ t ∈ [Token.mk .number "1" 0], t.Lone := List.forall_mem_singleton.2 rfl
  exact ⟨_, _, alone, .number rfl, Expr.fits_atom.2 enough⟩

theorem proper_of_chained (chained : level.signs ≠ []) : level ≠ .primary := by
  rintro rfl
  exact chained rfl

theorem Begins.operand (h : Begins level.operand room (calls - 1) front)
    (chained : level.signs ≠ []) : Begins level room calls front := by
  obtain ⟨back, e, lone, derives, fits⟩ := h
  have whole := Derives.operand (proper_of_chained chained) derives
  exact ⟨back, e, lone, whole, (Expr.fits_operand chained).1 fits⟩

theorem Begins.unary (h : Begins .power room (calls - 2) front) : Begins .unary room calls front := by
  obtain ⟨back, e, lone, derives, fits⟩ := h
  exact ⟨back, e, lone, .operand (by decide) derives, Expr.fits_power.1 fits⟩

theorem Begins.operation {op : BinaryOp}
    (h : Begins level.operand room (calls - 1 - aside level.rank) front)
    (first : Derives level ts left) (fits : left.Fits level room calls)
    (found : t.operator? level.rank = some op) : Begins level room calls (ts ++ t :: front) := by
  obtain ⟨back, e, lone, derives, fits'⟩ := h
  obtain ⟨kind, sign⟩ := Token.operator?_eq_some_iff.1 found
  refine ⟨back, .binary op t.start left e, lone, ?_, (Expr.fits_binary sign _).2 ⟨fits, fits'⟩⟩
  rw [List.append_assoc]
  exact .operation sign kind first derives

/-- A group that is open goes on as what stands in it does, and then it can be closed. -/
theorem Begins.group (h : Begins .compare room (calls - 1) front)
    (opens : t.kind = .symbol .opening) : Begins .primary (room + 1) (calls + 1) (t :: front) := by
  obtain ⟨back, e, lone, derives, fits⟩ := h
  refine ⟨back ++ [Symbol.closing.token 0], .group t.start e 0, ?_, ?_,
    Expr.fits_group.2 ⟨Nat.succ_le_succ fits.nesting, fits.height⟩⟩
  · exact List.forall_mem_append.2 ⟨lone, List.forall_mem_singleton.2 rfl⟩
  · rw [← List.append_assoc, List.cons_append]
    exact .group opens derives rfl

/-! ## One token ahead -/

/-- What a refusal says of the tokens that are left where it comes up; `stop` is where the text
ends. -/
def Blames (stop : Nat) (cause : ParseError) : List Token → Prop
  | [] => cause = .endOfFormula ∨ cause = .unclosedGroup stop
  | t :: _ => cause = .misplaced t.text t.start ∨ cause = .unclosedGroup t.start

/-- A refusal for want of room, for groups or for calls. -/
def ForWant (refusal cause : ParseError) : Prop := cause = refusal ∨ cause = .nestedTooDeeply

/-- Every one of the readers refuses the tokens, whatever comes after the first one that is left, and
with as many calls or more. -/
def Refuse (again : Nat → Caller) (calls : Nat) (front rest : List Token) : Prop :=
  ∀ more calls', calls ≤ calls' → ∀ rest', rest'.head? = rest.head? →
    ∃ cause, again more calls' (front ++ rest') = .error cause

/-- The reader looks one token ahead. The other readers have more and more room; they take what
it takes and refuse what it refuses, unless that is for want of room. -/
structure LooksAhead (level : Level) (room stop : Nat) (refusal : ParseError) (read : Caller)
    (again : Nat → Caller) : Prop where
  took : ∀ calls tokens e rest, read calls tokens = .ok (e, rest) →
    ∃ taken, tokens = taken ++ rest ∧ ∀ more calls', calls ≤ calls' → ∀ rest',
      rest'.head? = rest.head? → again more calls' (taken ++ rest') = .ok (e, rest')
  refused : ∀ calls tokens cause, read calls tokens = .error cause → ¬ ForWant refusal cause →
    ∃ front rest, tokens = front ++ rest ∧ Blames stop cause rest ∧ Begins level room calls front ∧
      Refuse again calls front rest

variable {stop : Nat} {refusal : ParseError} {read : Caller} {again : Nat → Caller}

theorem head?_append_congr {rest rest' : List Token} (same : rest'.head? = rest.head?)
    (front : List Token) : (front ++ rest').head? = (front ++ rest).head? := by
  rw [List.head?_append, List.head?_append, same]

theorem LooksAhead.took_phrase (ahead : LooksAhead level room stop refusal read again)
    (reads : Reads level room read) {tokens rest : List Token}
    (h : read calls tokens = .ok (e, rest)) :
    ∃ taken, tokens = taken ++ rest ∧ (Derives level taken e ∧ e.Fits level room calls) ∧
      ∀ more calls', calls ≤ calls' → ∀ rest', rest'.head? = rest.head? →
        again more calls' (taken ++ rest') = .ok (e, rest') := by
  obtain ⟨taken, rfl, same⟩ := ahead.took _ _ _ _ h
  obtain ⟨taken', whole, phrase⟩ := reads.sound _ _ _ _ h
  obtain rfl := List.append_cancel_right whole
  exact ⟨taken, rfl, phrase, same⟩

/-! ### Chains -/

theorem rounds_of_stop {rank : Nat} (none : ∀ t, ts.head? = some t → t.operator? rank = none)
    (operand : Reader) (budget : List Token) :
    rounds rank operand budget left ts = .ok (left, ts) := by
  cases ts with
  | nil => cases budget <;> rfl
  | cons t after =>
    cases budget with
    | nil => rfl
    | cons => simp only [rounds, none t rfl]

/-- The rounds end in the same way whatever the budget is, as long as it is enough. -/
theorem LooksAhead.rounds_took (ahead : LooksAhead level.operand room stop refusal read again)
    {budget tokens rest : List Token} (enough : tokens.length ≤ budget.length)
    (h : rounds level.rank (read calls) budget left tokens = .ok (e, rest)) :
    ∃ taken, tokens = taken ++ rest ∧ ∀ more calls', calls ≤ calls' → ∀ rest',
      rest'.head? = rest.head? → ∀ budget' : List Token,
        (taken ++ rest').length ≤ budget'.length →
          rounds level.rank (again more calls') budget' left (taken ++ rest') = .ok (e, rest') := by
  induction budget generalizing tokens left with
  | nil =>
    obtain rfl := List.eq_nil_of_length_eq_zero (Nat.le_zero.1 enough)
    cases h
    exact ⟨[], rfl, fun more calls' _ rest' head budget' _ => rounds_of_stop (head ▸ nofun) _ _⟩
  | cons _ budget ih =>
    cases tokens with
    | nil =>
      cases h
      exact ⟨[], rfl, fun more calls' _ rest' head budget' _ => rounds_of_stop (head ▸ nofun) _ _⟩
    | cons t after =>
      simp only [rounds] at h
      split at h
      · rename_i none
        cases h
        refine ⟨[], rfl, fun more calls' _ rest' head budget' _ => rounds_of_stop ?_ _ _⟩
        rw [List.nil_append, head]
        rintro t ⟨⟩
        exact none
      · rename_i op found
        obtain ⟨⟨right, after'⟩, reads, next⟩ := exists_of_bind h
        obtain ⟨us, rfl, same⟩ := ahead.took _ _ _ _ reads
        have enough : after'.length ≤ budget.length := by
          simp only [List.length_cons, List.length_append] at enough
          omega
        obtain ⟨taken, rfl, goes⟩ := ih enough next
        refine ⟨t :: us ++ taken, by simp,
          fun more calls' longer rest' head budget' enough' => ?_⟩
        rw [List.append_assoc, List.cons_append] at enough' ⊢
        cases budget' with
        | nil => cases enough'
        | cons _ budget' =>
          simp only [List.length_cons, List.length_append] at enough'
          simp only [rounds, found]
          rw [same more calls' longer (taken ++ rest') (head?_append_congr head taken)]
          exact goes more calls' longer rest' head budget' (by rw [List.length_append]; omega)

/-- The rounds are refused in the same way too, and what they took is a longer start of a phrase. -/
theorem LooksAhead.rounds_refused (ahead : LooksAhead level.operand room stop refusal read again)
    (reads : Reads level.operand room read) {budget tokens before : List Token} {cause : ParseError}
    (enough : tokens.length ≤ budget.length) (first : Derives level before left)
    (fits : left.Fits level room calls)
    (h : rounds level.rank (read (calls - 1 - aside level.rank)) budget left tokens = .error cause)
    (other : ¬ ForWant refusal cause) :
    ∃ front rest, tokens = front ++ rest ∧ Blames stop cause rest ∧
      Begins level room calls (before ++ front) ∧ ∀ more calls',
        calls - 1 - aside level.rank ≤ calls' → ∀ rest', rest'.head? = rest.head? →
          ∀ budget' : List Token, (front ++ rest').length ≤ budget'.length → ∃ cause',
            rounds level.rank (again more calls') budget' left (front ++ rest') =
              .error cause' := by
  induction budget generalizing tokens before left with
  | nil => cases tokens <;> cases h
  | cons _ budget ih =>
    cases tokens with
    | nil => cases h
    | cons t after =>
      simp only [rounds] at h
      split at h
      · cases h
      rename_i op found
      -- The refusal comes from the next operand, or from a later round.
      rcases second : read (calls - 1 - aside level.rank) after with cause' | ⟨right, after'⟩ <;>
        rw [second] at h
      · cases h
        obtain ⟨front, rest, rfl, blames, begins, refuse⟩ := ahead.refused _ _ _ second other
        refine ⟨t :: front, rest, rfl, blames, begins.operation first fits found,
          fun more calls' longer rest' head budget' enough' => ?_⟩
        obtain ⟨cause', refused⟩ := refuse more calls' longer rest' head
        cases budget' with
        | nil => cases enough'
        | cons => exact ⟨cause', by simp only [List.cons_append, rounds, found, refused]; rfl⟩
      · obtain ⟨us, rfl, ⟨derives, fits'⟩, same⟩ := ahead.took_phrase reads second
        have enough : after'.length ≤ budget.length := by
          simp only [List.length_cons, List.length_append] at enough
          omega
        obtain ⟨kind, sign⟩ := Token.operator?_eq_some_iff.1 found
        obtain ⟨front, rest, rfl, blames, begins, refuse⟩ :=
          ih enough (.operation sign kind first derives)
            ((Expr.fits_binary sign _).2 ⟨fits, fits'⟩) h
        refine ⟨t :: us ++ front, rest, by simp, blames, by simpa using begins,
          fun more calls' longer rest' head budget' enough' => ?_⟩
        rw [List.append_assoc, List.cons_append] at enough' ⊢
        cases budget' with
        | nil => cases enough'
        | cons _ budget' =>
          simp only [List.length_cons, List.length_append] at enough'
          simp only [rounds, found]
          rw [same more calls' longer (front ++ rest') (head?_append_congr head front)]
          exact refuse more calls' longer rest' head budget' (by rw [List.length_append]; omega)

theorem LooksAhead.chain (level : Level)
    (ahead : LooksAhead level.operand room stop refusal read again)
    (reads : Reads level.operand room read) (chained : level.signs ≠ []) :
    LooksAhead level room stop refusal (chain level.rank read)
      fun more => chain level.rank (again more) where
  took calls tokens e rest h := by
    obtain ⟨⟨left, after⟩, first, next⟩ := exists_of_bind h
    obtain ⟨us, rfl, same⟩ := ahead.took _ _ _ _ first
    obtain ⟨taken, rfl, goes⟩ := ahead.rounds_took (by simp) next
    refine ⟨us ++ taken, by simp, fun more calls' longer rest' head => ?_⟩
    have nearer := Nat.sub_le_sub_right longer 1
    unfold Formula.chain
    rw [List.append_assoc,
      same more _ nearer (taken ++ rest') (head?_append_congr head taken)]
    exact goes more _ (Nat.sub_le_sub_right nearer _) rest' head _ (by simp)
  refused calls tokens cause h other := by
    unfold Formula.chain at h
    rcases first : read (calls - 1) tokens with cause' | ⟨left, after⟩ <;> rw [first] at h
    · cases h
      obtain ⟨front, rest, rfl, blames, begins, refuse⟩ := ahead.refused _ _ _ first other
      refine ⟨front, rest, rfl, blames, begins.operand chained,
        fun more calls' longer rest' head => ?_⟩
      obtain ⟨cause', refused⟩ := refuse more _ (Nat.sub_le_sub_right longer 1) rest' head
      exact ⟨cause', by simp only [Formula.chain, refused]; rfl⟩
    · obtain ⟨us, rfl, ⟨derives, fits⟩, same⟩ := ahead.took_phrase reads first
      obtain ⟨front, rest, rfl, blames, begins, refuse⟩ :=
        ahead.rounds_refused reads (by simp) (.operand (proper_of_chained chained) derives)
          ((Expr.fits_operand chained).1 fits) h other
      refine ⟨us ++ front, rest, by simp, blames, begins, fun more calls' longer rest' head => ?_⟩
      have nearer := Nat.sub_le_sub_right longer 1
      have goes := same more _ nearer (front ++ rest') (head?_append_congr head front)
      simp only [List.append_assoc, Formula.chain, goes]
      exact refuse more _ (Nat.sub_le_sub_right nearer _) rest' head _ (by simp)

/-! ### Percent signs -/

theorem LooksAhead.percented (ahead : LooksAhead .power room stop refusal read again) :
    LooksAhead .unary room stop refusal (percented read) fun more => percented (again more) where
  took calls tokens e rest h := by
    obtain ⟨⟨operand, after⟩, first, next⟩ := exists_of_bind h
    obtain ⟨taken, rfl, same⟩ := ahead.took _ _ _ _ first
    cases after with
    | nil =>
      cases next
      refine ⟨taken, rfl, fun more calls' longer rest' head => ?_⟩
      obtain rfl := List.head?_eq_none_iff.1 head
      rw [Formula.percented, same more _ (Nat.sub_le_sub_right longer 2) [] rfl]
      rfl
    | cons t after =>
      simp only at next
      split at next
      · rename_i kind
        cases next
        refine ⟨taken ++ [t], by simp, fun more calls' longer rest' _ => ?_⟩
        rw [List.append_assoc, List.singleton_append, Formula.percented,
          same more _ (Nat.sub_le_sub_right longer 2) (t :: rest') rfl]
        simp only [bind, Except.bind, kind, if_true]
      · rename_i kind
        cases next
        refine ⟨taken, rfl, fun more calls' longer rest' head => ?_⟩
        obtain ⟨later, rfl⟩ := List.head?_eq_some_iff.1 head
        rw [Formula.percented, same more _ (Nat.sub_le_sub_right longer 2) (t :: later) rfl]
        simp only [bind, Except.bind, kind, if_false]
  refused calls tokens cause h other := by
    unfold Formula.percented at h
    rcases first : read (calls - 2) tokens with cause' | ⟨operand, after⟩ <;> rw [first] at h
    · cases h
      obtain ⟨front, rest, rfl, blames, begins, refuse⟩ := ahead.refused _ _ _ first other
      refine ⟨front, rest, rfl, blames, begins.unary, fun more calls' longer rest' head => ?_⟩
      obtain ⟨cause', refused⟩ := refuse more _ (Nat.sub_le_sub_right longer 2) rest' head
      exact ⟨cause', by simp only [Formula.percented, refused]; rfl⟩
    · cases after with
      | nil => cases h
      | cons t after =>
        simp only [bind, Except.bind] at h
        split at h <;> cases h

theorem LooksAhead.ranks (ahead : LooksAhead .primary room stop refusal read again)
    (reads : Reads .primary room read) :
    LooksAhead .compare room stop refusal (ranks read) fun more => ranks (again more) :=
  have powers : Reads .power room _ := reads.chain .power (by decide)
  have terms : Reads .term room _ := powers.percented.chain .term (by decide)
  have sums : Reads .additive room _ := terms.chain .additive (by decide)
  have joins : Reads .concat room _ := sums.chain .concat (by decide)
  have power := ahead.chain .power reads (by decide)
  have term := power.percented.chain .term powers.percented (by decide)
  have sum := term.chain .additive terms (by decide)
  have join := sum.chain .concat sums (by decide)
  join.chain .compare joins (by decide)

/-! ### Leaves and groups -/

theorem of_looking_eq_error {tokens : List Token} {cause : ParseError}
    (h : looking read calls tokens = .error cause) (other : ¬ ForWant refusal cause) :
    3 ≤ calls ∧ read (calls - 1) tokens = .error cause := by
  by_cases enough : 3 ≤ calls
  · exact ⟨enough, looking_of_le enough read tokens ▸ h⟩
  · rw [looking, if_pos (Nat.not_le.1 enough)] at h
    cases h
    exact absurd (Or.inr rfl) other

/-- The reader of what stands in a group looks one token ahead. -/
structure GroupLooksAhead (room stop : Nat) (refusal : ParseError) (group : Nat → Caller)
    (again : Nat → Nat → Caller) : Prop where
  took : ∀ opening calls tokens e rest, group opening calls tokens = .ok (e, rest) →
    ∃ taken, tokens = taken ++ rest ∧ ∀ more calls', calls ≤ calls' → ∀ rest',
      again more opening calls' (taken ++ rest') = .ok (e, rest')
  refused : ∀ opening calls tokens cause, group opening calls tokens = .error cause →
    ¬ ForWant refusal cause →
      ∃ front rest, tokens = front ++ rest ∧ Blames stop cause rest ∧
        (∀ t : Token, t.kind = .symbol .opening → Begins .primary room (calls + 1) (t :: front)) ∧
        Refuse (fun more => again more opening) calls front rest

theorem groupLooksAhead_refused (room stop : Nat) (refusal : ParseError)
    (again : Nat → Nat → Caller) :
    GroupLooksAhead room stop refusal (fun _ => looking fun _ _ => .error refusal) again where
  took _ _ _ _ _ h := nomatch (of_looking_eq_ok h).2
  refused opening calls tokens cause h other := by
    obtain ⟨_, same⟩ := of_looking_eq_error h other
    cases same
    exact absurd (Or.inl rfl) other

theorem LooksAhead.closed (ahead : LooksAhead .compare room stop refusal read again)
    (reads : Reads .compare room read) :
    GroupLooksAhead (room + 1) stop refusal (closed stop read)
      fun more => closed stop (again more) where
  took opening calls tokens e rest h := by
    obtain ⟨enough, h⟩ := of_looking_eq_ok h
    obtain ⟨⟨inside, after⟩, first, next⟩ := exists_of_bind h
    obtain ⟨taken, rfl, same⟩ := ahead.took _ _ _ _ first
    cases after with
    | nil => cases next
    | cons t after =>
      simp only at next
      split at next
      · rename_i kind
        cases next
        refine ⟨taken ++ [t], by simp, fun more calls' longer rest' => ?_⟩
        rw [List.append_assoc, List.singleton_append, Formula.closed,
          looking_of_le (Nat.le_trans enough longer),
          same more _ (Nat.sub_le_sub_right longer 1) (t :: rest') rfl]
        simp only [bind, Except.bind, kind, if_true]
      · cases next
  refused opening calls tokens cause h other := by
    obtain ⟨enough, run⟩ := of_looking_eq_error h other
    -- Either what stands in the group is refused, or the token after it is no closing parenthesis.
    rcases first : read (calls - 1) tokens with cause' | ⟨inside, after⟩ <;>
      simp only [first, bind, Except.bind] at run
    · cases run
      obtain ⟨front, rest, rfl, blames, begins, refuse⟩ := ahead.refused _ _ _ first other
      refine ⟨front, rest, rfl, blames, fun _ opens => begins.group opens,
        fun more calls' longer rest' head => ?_⟩
      obtain ⟨cause', refused⟩ := refuse more _ (Nat.sub_le_sub_right longer 1) rest' head
      refine ⟨cause', ?_⟩
      simp only [Formula.closed, looking_of_le (Nat.le_trans enough longer), refused]
      rfl
    · obtain ⟨taken, rfl, ⟨derives, fits⟩, same⟩ := ahead.took_phrase reads first
      have begins : ∀ t : Token, t.kind = .symbol .opening →
          Begins .primary (room + 1) (calls + 1) (t :: taken) :=
        fun _ opens => (derives.begins fits).group opens
      cases after with
      | nil =>
        cases run
        refine ⟨taken, [], rfl, Or.inr rfl, begins, fun more calls' longer rest' head => ?_⟩
        obtain rfl := List.head?_eq_none_iff.1 head
        have goes := same more _ (Nat.sub_le_sub_right longer 1) [] rfl
        refine ⟨.unclosedGroup stop, ?_⟩
        simp only [Formula.closed, looking_of_le (Nat.le_trans enough longer), goes]
        rfl
      | cons t after =>
        simp only at run
        split at run
        · cases run
        · rename_i kind
          cases run
          refine ⟨taken, t :: after, rfl, Or.inr rfl, begins,
            fun more calls' longer rest' head => ?_⟩
          obtain ⟨later, rfl⟩ := List.head?_eq_some_iff.1 head
          have goes := same more _ (Nat.sub_le_sub_right longer 1) (t :: later) rfl
          refine ⟨.unclosedGroup t.start, ?_⟩
          simp only [Formula.closed, looking_of_le (Nat.le_trans enough longer), goes, bind,
            Except.bind, kind, if_false]

theorem GroupLooksAhead.primary {group : Nat → Caller} {again : Nat → Nat → Caller}
    (ahead : GroupLooksAhead room stop refusal group again) :
    LooksAhead .primary room stop refusal (primary group) fun more => primary (again more) where
  took calls tokens e rest h := by
    obtain ⟨enough, h⟩ := of_looking_eq_ok h
    cases tokens with
    | nil => cases h
    | cons t after =>
      simp only at h
      split at h
      · rename_i opens
        obtain ⟨taken, rfl, same⟩ := ahead.took _ _ _ _ _ h
        refine ⟨t :: taken, rfl, fun more calls' longer rest' _ => ?_⟩
        have goes := same more _ (Nat.sub_le_sub_right longer 1) rest'
        simp only [Formula.primary, looking_of_le (Nat.le_trans enough longer), List.cons_append,
          opens, if_true, goes]
      · split at h
        · rename_i a leaf
          cases h
          exact ⟨[t], rfl, fun more calls' longer rest' _ =>
            primary_of_atom? leaf (Nat.le_trans enough longer) rest'⟩
        · cases h
  refused calls tokens cause h other := by
    obtain ⟨enough, h⟩ := of_looking_eq_error h other
    cases tokens with
    | nil =>
      cases h
      refine ⟨[], [], rfl, Or.inl rfl, begins_primary enough,
        fun more calls' longer rest' head => ?_⟩
      obtain rfl := List.head?_eq_none_iff.1 head
      exact ⟨_, looking_of_le (Nat.le_trans enough longer) _ _⟩
    | cons t after =>
      simp only at h
      split at h
      · rename_i opens
        obtain ⟨front, rest, rfl, blames, begins, refuse⟩ := ahead.refused _ _ _ _ h other
        have calls_eq : calls - 1 + 1 = calls := by omega
        refine ⟨t :: front, rest, rfl, blames, calls_eq ▸ begins t opens,
          fun more calls' longer rest' head => ?_⟩
        obtain ⟨cause', refused⟩ := refuse more _ (Nat.sub_le_sub_right longer 1) rest' head
        refine ⟨cause', ?_⟩
        simp only [Formula.primary, looking_of_le (Nat.le_trans enough longer), List.cons_append,
          opens, if_true, refused]
      · rename_i plain
        split at h
        · cases h
        · rename_i none
          cases h
          refine ⟨[], t :: after, rfl, Or.inl rfl, begins_primary enough,
            fun more calls' longer rest' head => ?_⟩
          obtain ⟨later, rfl⟩ := List.head?_eq_some_iff.1 head
          refine ⟨.misplaced t.text t.start, ?_⟩
          simp only [Formula.primary, looking_of_le (Nat.le_trans enough longer), List.nil_append,
            plain, if_false, none]

/-- Expressions are read with one token ahead, whatever room there is. -/
theorem expression_looksAhead (refusal : ParseError) (stop room : Nat) :
    LooksAhead .compare room stop refusal (expression refusal stop room)
      fun more => expression refusal stop (room + more) := by
  induction room with
  | zero =>
    have each : ∀ n, ∃ group, expression refusal stop (0 + n) = ranks (primary group) := by
      intro n
      rw [Nat.zero_add]
      cases n with
      | zero => exact ⟨_, rfl⟩
      | succ => exact ⟨_, rfl⟩
    choose group same using each
    have ahead := groupLooksAhead_refused 0 stop refusal group
    rw [funext same]
    exact ahead.primary.ranks (readsGroup_refused refusal).primary
  | succ room ih =>
    have same : ∀ more, expression refusal stop (room + 1 + more) =
        ranks (primary (closed stop (expression refusal stop (room + more)))) := by
      intro more
      rw [Nat.add_right_comm]
      rfl
    rw [funext same]
    have reads := reads_expression refusal stop room
    exact (ih.closed reads).primary.ranks (reads.closed stop).primary

/-! ## The starts of formulas -/

/-- Some text is read as a formula under the limit, and its tokens start with these, at any
places. -/
def BeginsFormula (limit : Limit) (front : List Token) : Prop :=
  ∃ text f tokens, parse text limit = .ok f ∧ scan text = .ok tokens ∧
    front.map Token.face <+: tokens.map Token.face

theorem exists_spaced (words : List String) : ∃ cs, Spaced words cs := by
  induction words with
  | nil => exact ⟨[], .done nofun⟩
  | cons w words ih =>
    obtain ⟨cs, spaced⟩ := ih
    have blank : ∀ c ∈ [' '], isBlank c = true := List.forall_mem_singleton.2 (by decide)
    exact ⟨_, .word blank (fun _ => List.cons_ne_nil _ _) spaced⟩

/-- The start of a phrase, with an equals sign in front of it, is the start of a formula: one
with blanks between its tokens. -/
theorem Begins.formula {limit : Limit} (h : Begins .compare limit.depth.toNat limit.stack front)
    (lone : ∀ t ∈ front, t.Lone) : BeginsFormula limit (Symbol.equal.token 0 :: front) := by
  obtain ⟨back, e, more, derives, fits⟩ := h
  have alone : ∀ t ∈ Symbol.equal.token 0 :: (front ++ back), t.Lone :=
    List.forall_mem_cons.2 ⟨rfl, List.forall_mem_append.2 ⟨lone, more⟩⟩
  obtain ⟨cs, spaced⟩ := exists_spaced ((Symbol.equal.token 0 :: (front ++ back)).map (·.text))
  obtain ⟨us, found, same⟩ := spaced.exists_scanned alone rfl 0
  have chars : (String.ofList cs).toList = cs := String.toList_ofList
  have starts : (String.ofList cs).toList.head? = some '=' := by
    rw [chars]
    exact spaced.head?_eq (by decide)
  have scanned : scan (.ofList cs) = .ok us := found.scan_eq chars
  have room : limit.Allows e := ⟨fits.nesting, fits.height⟩
  obtain ⟨f, parsed, _⟩ := derives.exists_parse room starts scanned same
  refine ⟨.ofList cs, f, us, parsed, scanned, ?_⟩
  rw [same, ← List.cons_append, List.map_append]
  exact List.prefix_append _ _

theorem BeginsFormula.exists_derives {limit : Limit} {sign : Token}
    (h : BeginsFormula limit (sign :: front)) : ∃ back e, Derives .compare (front ++ back) e := by
  obtain ⟨text, f, tokens, parsed, scanned, later, whole⟩ := h
  obtain ⟨_, _, rest, found, derives, _⟩ := parse_eq_ok_iff.1 parsed
  cases scanned.symm.trans found
  have whole : rest.map Token.face = front.map Token.face ++ later := (List.cons.inj whole).2.symm
  obtain ⟨us, back, rfl, same, _⟩ := List.map_eq_append_iff.1 whole
  have faces : (front ++ back).map Token.face = (us ++ back).map Token.face := by
    rw [List.map_append, List.map_append, same]
  obtain ⟨e, derives', _⟩ := derives.of_faces faces
  exact ⟨back, e, derives'⟩

/-! ## Refusals of formulas -/

theorem Derives.expression_eq (h : Derives .compare ts e) (refusal : ParseError)
    (stop room calls : Nat) :
    expression refusal stop (room + e.nesting) (calls + e.height) ts = .ok (e, []) := by
  have reads := reads_expression refusal stop (room + e.nesting)
  have whole := reads.complete (calls + e.height) ts e [] h
    ⟨Nat.le_add_left _ _, Nat.le_add_left _ _⟩ (Level.stops_nil _)
  rwa [List.append_nil] at whole

/-- Tokens that are not read to their end start a phrase as far as they are taken, and with the
next one they start none. -/
theorem exists_blame {tokens : List Token} {cause : ParseError}
    (h : expression refusal stop room calls tokens = .error cause ∧ ¬ ForWant refusal cause ∨
      ∃ e t after, expression refusal stop room calls tokens = .ok (e, t :: after) ∧
        cause = .misplaced t.text t.start) :
    ∃ front rest, tokens = front ++ rest ∧ Blames stop cause rest ∧
      Begins .compare room calls front ∧
      ∀ t, rest.head? = some t → ∀ back e, ¬ Derives .compare (front ++ t :: back) e := by
  have ahead := expression_looksAhead refusal stop room
  have reads := reads_expression refusal stop room
  rcases h with ⟨refused, other⟩ | ⟨e, t, after, took, rfl⟩
  · obtain ⟨front, rest, rfl, blames, begins, refuse⟩ := ahead.refused _ _ _ refused other
    refine ⟨front, rest, rfl, blames, begins, fun t next back d derives => ?_⟩
    obtain ⟨cause', again⟩ :=
      refuse d.nesting (calls + d.height) (Nat.le_add_right _ _) (t :: back) next.symm
    cases again.symm.trans (derives.expression_eq refusal stop room calls)
  · obtain ⟨taken, rfl, ⟨derives, fits⟩, same⟩ := ahead.took_phrase reads took
    refine ⟨taken, t :: after, rfl, Or.inl rfl, derives.begins fits, ?_⟩
    rintro t ⟨⟩ back d derives'
    have again := same d.nesting (calls + d.height) (Nat.le_add_right _ _) (t :: back) rfl
    cases again.symm.trans (derives'.expression_eq refusal stop room calls)

theorem expression_of_parse_eq_error {text : String} {limit : Limit} {sign : Token}
    {tokens : List Token} {cause : ParseError} (starts : text.toList.head? = some '=')
    (scanned : scan text = .ok (sign :: tokens)) (h : parse text limit = .error cause) :
    expression (.nestedPast limit.depth) text.length limit.depth.toNat limit.stack tokens =
        .error cause ∨
      ∃ e t after, expression (.nestedPast limit.depth) text.length limit.depth.toNat limit.stack
        tokens = .ok (e, t :: after) ∧ cause = .misplaced t.text t.start := by
  unfold parse at h
  rw [if_neg (not_not.2 starts), scanned] at h
  simp only [bind, Except.bind, List.drop_succ_cons, List.drop_zero] at h
  split at h
  · rename_i cause' refused
    cases h
    exact Or.inl refused
  · rename_i outcome took
    obtain ⟨e, rest⟩ := outcome
    cases rest with
    | nil => cases h
    | cons t after =>
      cases h
      exact Or.inr ⟨e, t, after, took, rfl⟩

/-- A text that has tokens and is no formula is refused at the first token that no formula goes
on with, unless what it lacks is room. The tokens before that one start a formula
under the limit, and with that one they start none under any limit. Where the end of the text is
blamed, all of its tokens start a formula. -/
theorem refused_at_the_first_wrong_token {text : String} {limit : Limit} {tokens : List Token}
    {cause : ParseError} (starts : text.toList.head? = some '=') (scanned : scan text = .ok tokens)
    (refused : parse text limit = .error cause) (shallow : cause ≠ .nestedPast limit.depth)
    (roomy : cause ≠ .nestedTooDeeply) :
    (∃ before t after, tokens = before ++ t :: after ∧ t.start < text.length ∧
      (cause = .misplaced t.text t.start ∨ cause = .unclosedGroup t.start) ∧
      BeginsFormula limit before ∧ ∀ limit', ¬ BeginsFormula limit' (before ++ [t])) ∨
    ((cause = .endOfFormula ∨ cause = .unclosedGroup text.length) ∧
      BeginsFormula limit tokens) := by
  obtain ⟨tokens, rfl⟩ := scan_sign starts scanned
  have found := scanned_of_scanFrom scanned
  have stuck := expression_of_parse_eq_error starts scanned refused
  obtain ⟨front, rest, rfl, blames, begins, none⟩ :=
    exists_blame (stuck.imp_left fun refused => ⟨refused, not_or.2 ⟨shallow, roomy⟩⟩)
  have lone := (List.forall_mem_cons.1 found.lone).2
  have before := begins.formula (List.forall_mem_append.1 lone).1
  cases rest with
  | nil => exact Or.inr ⟨blames, by rwa [List.append_nil]⟩
  | cons t after =>
    refine Or.inl ⟨_, t, after, rfl, ?_, blames, before, fun limit' with_t => ?_⟩
    · have within := found.within (t := t) (by simp)
      rw [String.length_toList] at within
      omega
    · have with_t : BeginsFormula limit' (Symbol.equal.token 0 :: (front ++ [t])) := with_t
      obtain ⟨back, e, derives⟩ := with_t.exists_derives
      rw [List.append_assoc, List.singleton_append] at derives
      exact none t rfl back e derives

/-- A number after a number in a group, and a group that the text ends in. -/
theorem refused_at_the_first_wrong_token_of_a_group :
    (∃ before t after, scan "=2*(1 3" = .ok (before ++ t :: after) ∧
      parse "=2*(1 3" (1 : Int) = .error (.unclosedGroup 6) ∧ t.start = 6 ∧
      BeginsFormula (1 : Int) before ∧ ∀ limit, ¬ BeginsFormula limit (before ++ [t])) ∧
    ∃ tokens, scan "=(1%" = .ok tokens ∧ parse "=(1%" (1 : Int) = .error (.unclosedGroup 4) ∧
      BeginsFormula (1 : Int) tokens := by
  constructor
  · have accepted : (scan "=2*(1 3").toOption.isSome = true := by decide +kernel
    obtain ⟨tokens, read⟩ := Option.isSome_iff_exists.1 accepted
    have scanned := eq_ok_of_toOption read
    have refused : parse "=2*(1 3" (1 : Int) = .error (.unclosedGroup 6) := by decide +kernel
    rcases refused_at_the_first_wrong_token rfl scanned refused nofun nofun with
      ⟨before, t, after, rfl, _, place, begins, none⟩ | ⟨last, _⟩
    · have start : 6 = t.start := place.elim nofun ParseError.unclosedGroup.inj
      exact ⟨before, t, after, scanned, refused, start.symm, begins, none⟩
    · exact absurd last (by decide)
  · have accepted : (scan "=(1%").toOption.isSome = true := by decide +kernel
    obtain ⟨tokens, read⟩ := Option.isSome_iff_exists.1 accepted
    have scanned := eq_ok_of_toOption read
    have refused : parse "=(1%" (1 : Int) = .error (.unclosedGroup 4) := by decide +kernel
    rcases refused_at_the_first_wrong_token rfl scanned refused nofun nofun with
      ⟨_, t, _, _, inside, place, _⟩ | ⟨_, begins⟩
    · have start : 4 = t.start := place.elim nofun ParseError.unclosedGroup.inj
      exact absurd inside (start ▸ by decide)
    · exact ⟨tokens, scanned, refused, begins⟩

end Worksheet.Formula
