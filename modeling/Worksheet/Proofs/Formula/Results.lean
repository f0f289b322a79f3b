-- What a formula comes to. Its value hangs on the cells that it names and on no others, and these
-- are asked for in the order of the text. A formula that was read always comes to a value, whatever
-- values and formula errors it is given; none shows a bad reference by itself.
import Worksheet.Formula.Evaluation
import Worksheet.Proofs.Formula.Grammar
import Worksheet.Proofs.Runs

namespace Worksheet.Formula

open Worksheet.Text (disclose upper)

/-! ## Results without the keys asked for -/

def Atom.result (lookup : Lookup) (a : Atom) : Except Fault Value :=
  match a.kind with
  | .number => numberValue a.text
  | .truth => .ok (.boolean (upper a.text = "TRUE"))
  | .text => .ok (.text (disclose a.text))
  | .name => .error (.formula (.unsupportedName a.text))
  | .cell => lookup (upper a.text)

def Expr.result (lookup : Lookup) : Expr → Except Fault Value
  | .atom a => a.result lookup
  | .group _ inner _ => inner.result lookup
  | .percent operand _ => do
    let v ← operand.result lookup
    (hundredth v).mapError .formula
  | .binary op _ left right => do
    let v ← left.result lookup
    let w ← right.result lookup
    op.apply v w

theorem Reading.run_bind {α β : Type} (r : Reading α) (f : α → Reading β) (asked : List String) :
    (r >>= f).run asked =
      match r.run asked with
      | (.ok a, asked') => (f a).run asked'
      | (.error fault, asked') => (.error fault, asked') := by
  change (StateT.bind (ExceptT.run r) (ExceptT.bindCont f)) asked = _
  simp only [StateT.bind]
  rcases (ExceptT.run r asked : Except Fault α × List String) with ⟨_ | a, asked'⟩ <;> rfl

theorem Reading.run_ofExcept {α : Type} (x : Except Fault α) (asked : List String) :
    (Reading.ofExcept x).run asked = (x, asked) := by
  cases x <;> rfl

theorem Atom.run_value (lookup : Lookup) (a : Atom) (asked : List String) :
    ((a.value lookup).run asked).1 = a.result lookup := by
  obtain ⟨kind, text, start⟩ := a
  cases kind with
  | number => exact congrArg Prod.fst (Reading.run_ofExcept _ asked)
  | truth => rfl
  | text => rfl
  | name => rfl
  | cell => exact congrArg Prod.fst (Reading.run_ofExcept _ (upper text :: asked))

theorem Expr.run_value (lookup : Lookup) (e : Expr) (asked : List String) :
    ((e.value lookup).run asked).1 = e.result lookup := by
  induction e generalizing asked with
  | atom a => exact a.run_value lookup asked
  | group o inner c ih => exact ih asked
  | percent operand sign ih =>
    have first := ih asked
    rw [Expr.value, Reading.run_bind, Expr.result, ← first]
    rcases (operand.value lookup).run asked with ⟨_ | v, asked'⟩
    · rfl
    · exact congrArg Prod.fst (Reading.run_ofExcept _ asked')
  | binary op sign left right ihl ihr =>
    have first := ihl asked
    rw [Expr.value, Reading.run_bind, Expr.result, ← first]
    rcases (left.value lookup).run asked with ⟨_ | v, asked'⟩
    · rfl
    · have second := ihr asked'
      simp only [Reading.run_bind, ← second]
      rcases (right.value lookup).run asked' with ⟨_ | w, asked''⟩
      · rfl
      · exact congrArg Prod.fst (Reading.run_ofExcept _ asked'')

theorem outcome_eq (lookup : Lookup) (f : Formula) :
    f.outcome lookup = settle (f.body.result lookup) := by
  unfold outcome Reading.outcome
  rw [Expr.compute_eq_value, Expr.run_value]

/-! ## Which cells count -/

def references (f : Formula) : List String := f.cells.map fun a => upper a.text

theorem Expr.result_congr {lookup lookup' : Lookup} {e : Expr}
    (same : ∀ a ∈ e.cells, lookup (upper a.text) = lookup' (upper a.text)) :
    e.result lookup = e.result lookup' := by
  induction e with
  | atom a =>
    obtain ⟨kind, text, start⟩ := a
    cases kind with
    | cell => exact same ⟨.cell, text, start⟩ (by simp [Expr.cells])
    | _ => rfl
  | group o inner c ih => exact ih same
  | percent operand sign ih => rw [Expr.result, ih same, Expr.result]
  | binary op sign left right ihl ihr =>
    have onLeft := ihl fun a ha => same a (List.mem_append_left _ ha)
    have onRight := ihr fun a ha => same a (List.mem_append_right _ ha)
    rw [Expr.result, onLeft, onRight, Expr.result]

/-- Look-ups that agree on the references of a formula give it one outcome. -/
theorem outcome_congr {lookup lookup' : Lookup} {f : Formula}
    (same : ∀ r ∈ f.references, lookup r = lookup' r) : f.outcome lookup = f.outcome lookup' := by
  rw [outcome_eq, outcome_eq, Expr.result_congr]
  intro a ha
  exact same _ (List.mem_map.2 ⟨a, f.cells_eq ▸ ha, rfl⟩)

/-- Two formulas are alike: they name the same cells in the same order, and a cell takes the same
from both, whatever stands in those. -/
structure Alike (f g : Formula) : Prop where
  references : f.references = g.references
  outcome : ∀ lookup, f.outcome lookup = g.outcome lookup

theorem Alike.refl (f : Formula) : f.Alike f := ⟨rfl, fun _ => rfl⟩

/-! ## The keys that are asked for -/

def Expr.references (e : Expr) : List String := e.cells.map fun a => upper a.text

theorem references_eq (f : Formula) : f.references = f.body.references := by
  rw [references, cells_eq, Expr.references]

/-- A computation asks for keys from the front of a list, and for all of them where it comes to a
value. -/
def Reading.AsksFrom {α : Type} (r : Reading α) (names : List String) : Prop :=
  ∀ asked, ∃ keys, keys <+: names ∧ (r.run asked).2 = keys.reverse ++ asked ∧
    ∀ a, (r.run asked).1 = .ok a → keys = names

theorem Reading.asksFrom_ofExcept {α : Type} (x : Except Fault α) :
    (Reading.ofExcept x).AsksFrom [] := fun asked =>
  ⟨[], List.prefix_rfl, by rw [run_ofExcept]; rfl, fun _ _ => rfl⟩

/-- What a computation asks for comes before what the next one asks for. -/
theorem Reading.AsksFrom.bind {α β : Type} {r : Reading α} {f : α → Reading β}
    {names more : List String} (first : r.AsksFrom names) (next : ∀ a, (f a).AsksFrom more) :
    (r >>= f).AsksFrom (names ++ more) := by
  intro asked
  obtain ⟨keys, front, kept, whole⟩ := first asked
  rw [run_bind]
  rcases came : r.run asked with ⟨_ | a, asked'⟩ <;> rw [came] at kept whole
  · exact ⟨keys, front.trans (List.prefix_append _ _), kept, nofun⟩
  · obtain ⟨keys', front', kept', whole'⟩ := next a asked'
    obtain rfl := whole a rfl
    refine ⟨keys ++ keys', (List.prefix_append_right_inj _).2 front', ?_, fun b hb => ?_⟩
    · have before : asked' = keys.reverse ++ asked := kept
      rw [List.reverse_append, List.append_assoc, ← before]
      exact kept'
    · rw [whole' b hb]

theorem Atom.asksFrom_value (lookup : Lookup) (a : Atom) :
    (a.value lookup).AsksFrom (Expr.references (.atom a)) := by
  obtain ⟨kind, text, start⟩ := a
  cases kind with
  | number => exact Reading.asksFrom_ofExcept _
  | truth => exact Reading.asksFrom_ofExcept (.ok _)
  | text => exact Reading.asksFrom_ofExcept (.ok _)
  | name => exact Reading.asksFrom_ofExcept (.error _)
  | cell =>
    intro asked
    refine ⟨[upper text], List.prefix_rfl, ?_, fun _ _ => rfl⟩
    exact congrArg Prod.snd (Reading.run_ofExcept _ (upper text :: asked))

/-- An expression asks for the keys that it names, in their order, and for all of them where it
comes to a value. -/
theorem Expr.asksFrom_value (lookup : Lookup) (e : Expr) :
    (e.value lookup).AsksFrom e.references := by
  induction e with
  | atom a => exact a.asksFrom_value lookup
  | group o inner c ih => exact ih
  | percent operand sign ih =>
    have whole := ih.bind (f := fun v => Reading.ofFormula (hundredth v)) fun v =>
      Reading.asksFrom_ofExcept _
    rwa [List.append_nil] at whole
  | binary op sign left right ihl ihr =>
    have names : (Expr.binary op sign left right).references =
        left.references ++ (right.references ++ []) := by
      simp [references, cells]
    rw [names]
    exact ihl.bind fun v => ihr.bind fun w => Reading.asksFrom_ofExcept _

theorem Reading.AsksFrom.keys {α : Type} {r : Reading α} {names : List String}
    (h : r.AsksFrom names) : r.keys <+: names ∧ ∀ a, r.outcome = .ok a → r.keys = names := by
  obtain ⟨asked, front, kept, whole⟩ := h []
  have same : r.keys = asked := by
    rw [Reading.keys, kept, List.append_nil, List.reverse_reverse]
  rw [same]
  exact ⟨front, whole⟩

theorem mem_references_of_asked {lookup : Lookup} {f : Formula} {key : String}
    (asked : key ∈ (f.body.compute lookup).keys) : key ∈ f.references := by
  rw [Expr.compute_eq_value] at asked
  rw [references_eq]
  exact (f.body.asksFrom_value lookup).keys.1.subset asked

/-! ## What can come out -/

/-- The errors that an evaluation brings by itself. -/
def ownCodes : List ErrorCode := [.divisionByZero, .value, .name]

/-- A value that a cell can hold: no error, and no number past the finite ones. -/
def Held : Value → Prop
  | .number x => x.isFinite = true
  | .error _ => False
  | _ => True

/-- Either a value that a cell can hold, or one of the errors of evaluation. -/
def Regular : Except Fault Value → Prop
  | .ok v => Held v
  | .error (.formula e) => e.code ∈ ownCodes
  | .error _ => False

def IsFinite : Value → Prop
  | .number x => x.isFinite = true
  | _ => True

/-- A result that stops nothing: a value, finite where it is a number, or a formula error. -/
def Harmless : Except Fault Value → Prop
  | .ok v => IsFinite v
  | .error (.formula _) => True
  | .error _ => False

theorem Held.isFinite {v : Value} (h : Held v) : IsFinite v := by
  cases v with
  | number x => exact h
  | _ => trivial

theorem Regular.harmless {x : Except Fault Value} (h : Regular x) : Harmless x := by
  rcases x with fault | v
  · cases fault with
    | formula e => trivial
    | _ => exact h
  · exact Held.isFinite h

theorem held_zero : Held .zero := by
  change (0 : Float).isFinite = true
  decide

theorem regular_ofFloat (x : Float) : Regular ((Value.ofFloat x).mapError .formula) := by
  unfold Value.ofFloat
  split
  · rename_i finite
    exact finite
  · exact (by decide : ErrorCode.value ∈ ownCodes)

theorem toNumber_cases (v : Value) :
    (∃ x, v.toNumber = .ok x) ∨ ∃ e, v.toNumber = .error e ∧ e.code = .value := by
  cases v with
  | number x => exact Or.inl ⟨x, rfl⟩
  | boolean b => exact Or.inl ⟨_, rfl⟩
  | error code => exact Or.inr ⟨_, rfl, rfl⟩
  | text s =>
    simp only [Value.toNumber]
    split
    · exact Or.inl ⟨_, rfl⟩
    · exact Or.inr ⟨_, rfl, rfl⟩

/-- A step that wants a number is regular when what follows is. -/
theorem regular_bind_toNumber (v : Value) {next : Float → Except FormulaError Value}
    (rest : ∀ x, Regular ((next x).mapError .formula)) :
    Regular ((v.toNumber >>= next).mapError .formula) := by
  rcases toNumber_cases v with ⟨x, hx⟩ | ⟨e, he, code⟩
  · rw [hx]
    exact rest x
  · rw [he]
    change e.code ∈ ownCodes
    rw [code]
    decide

theorem regular_ofNumbers {f : Float → Float → Except FormulaError Value}
    (rest : ∀ x y, Regular ((f x y).mapError .formula)) (v w : Value) :
    Regular ((ofNumbers f v w).mapError .formula) :=
  regular_bind_toNumber v fun x => regular_bind_toNumber w fun y => rest x y

theorem regular_raise (x y : Float) : Regular ((raise x y).mapError .formula) := by
  unfold raise
  split
  · exact (by decide : ErrorCode.divisionByZero ∈ ownCodes)
  · simp only
    split
    · exact (by decide : ErrorCode.value ∈ ownCodes)
    · split
      · exact (by decide : ErrorCode.value ∈ ownCodes)
      · exact regular_ofFloat _

theorem regular_quotient (v w : Value) : Regular ((quotient v w).mapError .formula) := by
  apply regular_bind_toNumber w
  intro y
  split
  · exact (by decide : ErrorCode.divisionByZero ∈ ownCodes)
  · exact regular_bind_toNumber v fun x => regular_ofFloat _

theorem not_special_of_isFinite {x : Float} (h : x.isFinite = true) :
    x.isNaN = false ∧ x.isInf = false := by
  change x.toModel.unpack.isFinite = true at h
  change x.toModel.unpack.isNaN = false ∧ x.toModel.unpack.isInf = false
  generalize x.toModel.unpack = u at h ⊢
  cases u with
  | notANumber => cases h
  | infinity => cases h
  | zero => exact ⟨rfl, rfl⟩
  | finite => exact ⟨rfl, rfl⟩

theorem exists_display {v : Value} (h : IsFinite v) : ∃ s, v.display = .ok s := by
  cases v with
  | number x =>
    obtain ⟨nan, inf⟩ := not_special_of_isFinite h
    exact ⟨_, Value.displayNumber_of_isFinite nan inf⟩
  | boolean b => exact ⟨_, rfl⟩
  | text s => exact ⟨s, rfl⟩
  | error code => exact ⟨_, rfl⟩

theorem regular_joined {v w : Value} (hv : IsFinite v) (hw : IsFinite w) :
    Regular (joined v w) := by
  obtain ⟨s, hs⟩ := exists_display hv
  obtain ⟨t, ht⟩ := exists_display hw
  unfold joined
  rw [hs, ht]
  trivial

/-- An operator comes to a value that a cell can hold, or to an error of its own, also where it is
given an error code. -/
theorem regular_apply (op : BinaryOp) {v w : Value} (hv : IsFinite v) (hw : IsFinite w) :
    Regular (op.apply v w) := by
  have compared : ∀ p : Float → Float → Bool,
      Regular ((comparison p v w).mapError .formula) := by
    intro p
    unfold comparison
    apply regular_ofNumbers
    intro x y
    trivial
  have computed : ∀ f : Float → Float → Float,
      Regular ((arithmetic f v w).mapError .formula) := by
    intro f
    unfold arithmetic
    exact regular_ofNumbers (fun x y => regular_ofFloat (f x y)) v w
  cases op with
  | equal => trivial
  | unequal => trivial
  | greater => exact compared _
  | less => exact compared _
  | atLeast => exact compared _
  | atMost => exact compared _
  | join => exact regular_joined hv hw
  | plus => exact computed _
  | minus => exact computed _
  | times => exact computed _
  | divide => exact regular_quotient v w
  | power => exact regular_ofNumbers regular_raise v w

theorem regular_hundredth (v : Value) : Regular ((hundredth v).mapError .formula) :=
  regular_bind_toNumber v fun _ => regular_ofFloat _

theorem regular_number {s : String} (h : (Number.read? s).isSome = true) :
    Regular (numberValue s) := by
  obtain ⟨x, hx⟩ := Option.isSome_iff_exists.1 h
  simp only [numberValue, hx]
  exact regular_ofFloat x

/-- Either a result of the expression's own, or what one of its cells gave. -/
def Traced (lookup : Lookup) (e : Expr) (x : Except Fault Value) : Prop :=
  Regular x ∨ ∃ a ∈ e.cells, x = lookup (upper a.text)

theorem Traced.mono {lookup : Lookup} {e e' : Expr} {x : Except Fault Value}
    (h : Traced lookup e x) (cells : ∀ a ∈ e.cells, a ∈ e'.cells) : Traced lookup e' x :=
  h.imp id fun ⟨a, ha, same⟩ => ⟨a, cells a ha, same⟩

theorem Traced.harmless {lookup : Lookup} {e : Expr} {x : Except Fault Value}
    (h : Traced lookup e x) (given : ∀ a ∈ e.cells, Harmless (lookup (upper a.text))) :
    Harmless x := by
  rcases h with own | ⟨a, ha, rfl⟩
  · exact own.harmless
  · exact given a ha

/-- A step passes an error on, and what it makes of a value is its own. -/
theorem Traced.bind {lookup : Lookup} {e : Expr} {x : Except Fault Value}
    (h : Traced lookup e x) (given : ∀ a ∈ e.cells, Harmless (lookup (upper a.text)))
    {next : Value → Except Fault Value} (rest : ∀ v, IsFinite v → Traced lookup e (next v)) :
    Traced lookup e (x >>= next) := by
  rcases x with fault | v
  · exact h
  · exact rest v (h.harmless given)

/-- Where nothing that stops an evaluation comes of its cells, an expression whose numbers can be
read comes to a result of its own, or to what one of its cells gave. -/
theorem traced_result {lookup : Lookup} {e : Expr}
    (given : ∀ a ∈ e.cells, Harmless (lookup (upper a.text)))
    (written : ∀ t ∈ e.tokens, t.Written) : Traced lookup e (e.result lookup) := by
  induction e with
  | atom a =>
    obtain ⟨kind, text, start⟩ := a
    cases kind with
    | number => exact Or.inl (regular_number ((written _ (List.mem_cons_self ..)).number rfl))
    | truth => exact Or.inl trivial
    | text => exact Or.inl trivial
    | name => exact Or.inl (by decide : ErrorCode.name ∈ ownCodes)
    | cell => exact Or.inr ⟨⟨.cell, text, start⟩, by simp [Expr.cells], rfl⟩
  | group o inner c ih =>
    apply ih given
    intro t ht
    apply written t
    rw [Expr.tokens]
    exact List.mem_append_left _ (List.mem_cons_of_mem _ ht)
  | percent operand sign ih =>
    have inside := ih given fun t ht => written t (List.mem_append_left _ ht)
    exact inside.bind given fun v _ => Or.inl (regular_hundredth v)
  | binary op sign left right ihl ihr =>
    have onLeft := ihl (fun a ha => given a (List.mem_append_left _ ha))
      fun t ht => written t (List.mem_append_left _ ht)
    have onRight := ihr (fun a ha => given a (List.mem_append_right _ ha))
      fun t ht => written t (List.mem_append_right _ (List.mem_cons_of_mem _ ht))
    refine (onLeft.mono fun a ha => List.mem_append_left _ ha).bind given fun v hv => ?_
    refine (onRight.mono fun a ha => List.mem_append_right _ ha).bind given fun w hw => ?_
    exact Or.inl (regular_apply op hv hw)

/-- Over values that cells can hold, an expression whose numbers can be read comes to a value that
a cell can hold, or to an error of its own. -/
theorem regular_result {lookup : Lookup} {e : Expr}
    (held : ∀ a ∈ e.cells, ∃ v, lookup (upper a.text) = .ok v ∧ Held v)
    (written : ∀ t ∈ e.tokens, t.Written) : Regular (e.result lookup) := by
  have regular : ∀ a ∈ e.cells, Regular (lookup (upper a.text)) := by
    intro a ha
    obtain ⟨v, found, hv⟩ := held a ha
    rw [found]
    exact hv
  rcases traced_result (fun a ha => (regular a ha).harmless) written with own | ⟨a, ha, same⟩
  · exact own
  · rw [same]
    exact regular a ha

/-- What a formula can come to: a value that a cell can hold, or one of three errors. -/
def Shown : Value → Prop
  | .error code => code ∈ ownCodes
  | v => Held v

theorem shown_of_held {v : Value} (h : Held v) : Shown v := by
  cases v with
  | error code => exact absurd h id
  | _ => exact h

theorem Regular.exists_settle {x : Except Fault Value} (h : Regular x) :
    ∃ v, settle x = .ok v ∧ Shown v := by
  rcases x with fault | v
  · cases fault with
    | formula e => exact ⟨.error e.code, rfl, h⟩
    | _ => exact absurd h id
  · exact ⟨v, rfl, shown_of_held h⟩

theorem Harmless.exists_settle {x : Except Fault Value} (h : Harmless x) :
    ∃ v, settle x = .ok v ∧ IsFinite v := by
  rcases x with fault | v
  · cases fault with
    | formula e => exact ⟨.error e.code, rfl, trivial⟩
    | _ => exact absurd h id
  · exact ⟨v, rfl, h⟩

/-- A formula that was read has an outcome over values that cells can hold. -/
theorem outcome_of_parse {text : String} {limit : Limit} {f : Formula} {lookup : Lookup}
    (parsed : parse text limit = .ok f)
    (held : ∀ r ∈ f.references, ∃ v, lookup r = .ok v ∧ Held v) :
    ∃ v, f.outcome lookup = .ok v ∧ Shown v := by
  have heldCells : ∀ a ∈ f.body.cells, ∃ v, lookup (upper a.text) = .ok v ∧ Held v :=
    fun a ha => held _ (List.mem_map.2 ⟨a, f.cells_eq ▸ ha, rfl⟩)
  rw [outcome_eq]
  exact (regular_result heldCells (written_of_parse parsed)).exists_settle

/-- A formula that was read comes to a value, finite where it is a number, whatever values and
formula errors its cells are looked up as: nothing in it stops an evaluation. -/
theorem parsed_formula_comes_to_a_value {text : String} {limit : Limit} {f : Formula}
    {lookup : Lookup} (parsed : parse text limit = .ok f)
    (harmless : ∀ key, Harmless (lookup key)) :
    ∃ v, f.outcome lookup = .ok v ∧ IsFinite v := by
  have given : ∀ a ∈ f.body.cells, Harmless (lookup (upper a.text)) := fun a _ => harmless _
  rw [outcome_eq]
  exact ((traced_result given (written_of_parse parsed)).harmless given).exists_settle

/-- A look-up with a number at one key and an error code at another; every other key is an error. -/
def mixedLookup (key : String) : Except Fault Value :=
  if key = "A1" then .ok (.number 2.5)
  else if key = "B1" then .ok (.error .divisionByZero)
  else .error (.formula (.unknownCell key))

/-- Digits of another script, a number joined with an error code, and a key that is not known. -/
theorem parsed_formula_comes_to_a_value_of_mixed :
    ∃ f v, parse "=(a1&b1)=٣.٥e٢%*C1" usualLimit = .ok f ∧ (∀ key, Harmless (mixedLookup key)) ∧
      f.outcome mixedLookup = .ok v ∧ IsFinite v := by
  have accepted : (parse "=(a1&b1)=٣.٥e٢%*C1" usualLimit).toOption.isSome = true := by
    decide +kernel
  obtain ⟨f, found⟩ := Option.isSome_iff_exists.1 accepted
  have parsed := eq_ok_of_toOption found
  have harmless : ∀ key, Harmless (mixedLookup key) := by
    intro key
    unfold mixedLookup
    split
    · exact (by decide : (2.5 : Float).isFinite = true)
    · split <;> trivial
  obtain ⟨v, came, finite⟩ := parsed_formula_comes_to_a_value parsed harmless
  exact ⟨f, v, parsed, harmless, came, finite⟩

end Worksheet.Formula
