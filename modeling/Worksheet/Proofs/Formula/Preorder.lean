-- Walks through trees. With a stack of its own, a walk takes the nodes of any tree as recursion
-- does: every address of the tree once, in the order of the dictionary. An outline is such a walk,
-- and the cells that it lists are the names among the tokens that are cell keys and no truth
-- values.
import Worksheet.Proofs.Formula.Scanning
import Worksheet.Proofs.Formula.Grammar

namespace Worksheet.Formula

open Worksheet.Text (upper)

/-! ## Trees -/

/-- A node with a label, and the trees below it from left to right. -/
inductive Tree (α : Type)
  | node (label : α) (children : List (Tree α))

namespace Tree

variable {α : Type}

def children : Tree α → List (Tree α)
  | node _ ts => ts

mutual

def size : Tree α → Nat
  | node _ ts => sizes ts + 1

def sizes : List (Tree α) → Nat
  | [] => 0
  | t :: ts => size t + sizes ts

end

/-- What holds of a node when it holds of all trees below it holds of every tree. -/
theorem rec_children {motive : Tree α → Prop}
    (node : ∀ a ts, (∀ t ∈ ts, motive t) → motive (.node a ts)) : ∀ t, motive t
  | .node a ts => node a ts fun t _ => rec_children node t

mutual

/-- The nodes of a tree by recursion, each with what is below it and its depth. -/
def preorder (depth : Nat) : Tree α → List (Tree α × Nat)
  | node a ts => (node a ts, depth) :: preorders (depth + 1) ts

def preorders (depth : Nat) : List (Tree α) → List (Tree α × Nat)
  | [] => []
  | t :: ts => preorder depth t ++ preorders depth ts

end

/-! ## A walk with a stack -/

/-- Puts trees on a stack one by one, the last one first. -/
def push (depth : Nat) (ts : List (Tree α)) (stack : List (Tree α × Nat)) : List (Tree α × Nat) :=
  ts.reverse.foldl (fun stack t => (t, depth) :: stack) stack

theorem push_eq (depth : Nat) (ts : List (Tree α)) (stack : List (Tree α × Nat)) :
    push depth ts stack = ts.map (·, depth) ++ stack := by
  rw [push, List.foldl_reverse]
  induction ts with
  | nil => rfl
  | cons t ts ih => rw [List.foldr_cons, ih, List.map_cons, List.cons_append]

def pending (stack : List (Tree α × Nat)) : Nat := sizes (stack.map Prod.fst)

theorem sizes_append (ts us : List (Tree α)) : sizes (ts ++ us) = sizes ts + sizes us := by
  induction ts with
  | nil => simp [sizes]
  | cons t ts ih => simp only [List.cons_append, sizes, ih, Nat.add_assoc]

theorem pending_push (t : Tree α) (depth below : Nat) (stack : List (Tree α × Nat)) :
    pending (push below t.children stack) < pending ((t, depth) :: stack) := by
  obtain ⟨a, ts⟩ := t
  have map : (ts.map fun t => (t, below)).map Prod.fst = ts := by simp [Function.comp_def]
  rw [push_eq, pending, pending, List.map_append, List.map_cons, children, map, sizes_append, sizes,
    size]
  omega

/-- Takes the tree on top of the stack, and puts the trees below its node in its place. -/
def walk : List (Tree α × Nat) → List (Tree α × Nat)
  | [] => []
  | (t, depth) :: stack => (t, depth) :: walk (push (depth + 1) t.children stack)
termination_by stack => pending stack
decreasing_by exact pending_push t depth _ _

theorem preorders_eq (depth : Nat) (ts : List (Tree α)) :
    preorders depth ts = (ts.map (·, depth)).flatMap fun q => q.1.preorder q.2 := by
  induction ts with
  | nil => rfl
  | cons t ts ih => rw [preorders, ih, List.map_cons, List.flatMap_cons]

/-- A walk takes the trees on the stack one after the other. -/
theorem walk_eq (stack : List (Tree α × Nat)) :
    walk stack = stack.flatMap fun q => q.1.preorder q.2 := by
  induction stack using walk.induct with
  | case1 => rw [walk, List.flatMap_nil]
  | case2 t depth stack ih =>
    obtain ⟨a, ts⟩ := t
    rw [walk, ih, push_eq, List.flatMap_append, List.flatMap_cons, preorder, children, preorders_eq,
      List.cons_append]

/-! ## Addresses -/

/-- The tree that a path of child numbers leads to. -/
def subtree? : Tree α → List Nat → Option (Tree α)
  | t, [] => some t
  | t, n :: path => t.children[n]?.bind (·.subtree? path)

mutual

/-- The paths that lead to the nodes of a tree. -/
def addresses : Tree α → List (List Nat)
  | node _ ts => [] :: addressesFrom 0 ts

/-- The paths that lead to the nodes of trees which are numbered from `n` on. -/
def addressesFrom (n : Nat) : List (Tree α) → List (List Nat)
  | [] => []
  | t :: ts => (addresses t).map (n :: ·) ++ addressesFrom (n + 1) ts

end

theorem mem_addressesFrom {n : Nat} {ts : List (Tree α)} {path : List Nat} :
    path ∈ addressesFrom n ts ↔
      ∃ i t rest, ts[i]? = some t ∧ rest ∈ t.addresses ∧ path = (n + i) :: rest := by
  induction ts generalizing n with
  | nil => simp [addressesFrom]
  | cons t ts ih =>
    rw [addressesFrom, List.mem_append, List.mem_map, ih]
    constructor
    · rintro (⟨rest, member, rfl⟩ | ⟨i, u, rest, here, member, rfl⟩)
      · exact ⟨0, t, rest, rfl, member, rfl⟩
      · exact ⟨i + 1, u, rest, here, member, by rw [Nat.add_assoc, Nat.add_comm 1]⟩
    · rintro ⟨_ | i, u, rest, here, member, rfl⟩
      · cases here
        exact Or.inl ⟨rest, member, rfl⟩
      · exact Or.inr ⟨i, u, rest, here, member, by rw [Nat.add_assoc, Nat.add_comm 1]⟩

theorem mem_addresses {t : Tree α} {path : List Nat} :
    path ∈ t.addresses ↔ (t.subtree? path).isSome = true := by
  induction path generalizing t with
  | nil =>
    obtain ⟨a, ts⟩ := t
    simp [addresses, subtree?]
  | cons n path ih =>
    obtain ⟨a, ts⟩ := t
    rw [addresses, List.mem_cons, mem_addressesFrom, subtree?, children]
    constructor
    · rintro (none | ⟨i, u, rest, here, member, same⟩)
      · cases none
      · rw [Nat.zero_add] at same
        cases same
        rw [here, Option.bind_some]
        exact ih.1 member
    · intro leads
      rcases here : ts[n]? with _ | u <;> rw [here] at leads
      · cases leads
      · exact Or.inr ⟨n, u, path, here, ih.2 leads, by rw [Nat.zero_add]⟩

theorem pairwise_addressesFrom {ts : List (Tree α)}
    (inner : ∀ t ∈ ts, t.addresses.Pairwise (· < ·)) (n : Nat) :
    (addressesFrom n ts).Pairwise (· < ·) := by
  induction ts generalizing n with
  | nil => exact .nil
  | cons t ts ih =>
    rw [addressesFrom, List.pairwise_append]
    refine ⟨?_, ih (fun u member => inner u (List.mem_cons_of_mem _ member)) (n + 1), ?_⟩
    · rw [List.pairwise_map]
      refine (inner t (List.mem_cons_self ..)).imp fun less => ?_
      exact List.cons_lt_cons_iff.2 (Or.inr ⟨rfl, less⟩)
    · intro path first other later
      obtain ⟨rest, _, rfl⟩ := List.mem_map.1 first
      obtain ⟨i, _, rest', _, _, rfl⟩ := mem_addressesFrom.1 later
      exact List.cons_lt_cons_iff.2 (Or.inl (by omega))

/-- The addresses are listed in the order of the dictionary, each once. -/
theorem pairwise_addresses (t : Tree α) : t.addresses.Pairwise (· < ·) := by
  induction t using rec_children with
  | node a ts ih =>
    rw [addresses, List.pairwise_cons]
    refine ⟨fun path member => ?_, pairwise_addressesFrom ih 0⟩
    obtain ⟨i, _, rest, _, _, rfl⟩ := mem_addressesFrom.1 member
    exact List.nil_lt_cons ..

theorem preorders_by_address {whole ts : List (Tree α)} {n : Nat}
    (place : ∀ i, whole[n + i]? = ts[i]?)
    (inner : ∀ t ∈ ts, ∀ depth, (t.preorder depth).map some =
      t.addresses.map fun path => (t.subtree? path).map (·, depth + path.length)) (a : α)
    (depth : Nat) :
    (preorders (depth + 1) ts).map some = (addressesFrom n ts).map fun path =>
      ((node a whole).subtree? path).map (·, depth + path.length) := by
  induction ts generalizing n with
  | nil => rfl
  | cons t ts ih =>
    have here : whole[n]? = some t := place 0
    have next : ∀ i, whole[n + 1 + i]? = ts[i]? := fun i => by
      rw [Nat.add_assoc, Nat.add_comm 1]
      exact place (i + 1)
    have later := ih next fun u member => inner u (List.mem_cons_of_mem _ member)
    rw [preorders, addressesFrom, List.map_append, List.map_append, later,
      inner t (List.mem_cons_self ..), List.map_map]
    congr 1
    refine List.map_congr_left fun path _ => ?_
    rw [Function.comp_apply, subtree?, children, here, Option.bind_some, List.length_cons,
      Nat.add_assoc, Nat.add_comm 1]

/-- Recursion lists the nodes by their addresses, and a node is as deep as its address is long. -/
theorem preorder_by_address (t : Tree α) (depth : Nat) :
    (t.preorder depth).map some =
      t.addresses.map fun path => (t.subtree? path).map (·, depth + path.length) := by
  induction t using rec_children generalizing depth with
  | node a ts ih =>
    have place : ∀ i, ts[0 + i]? = ts[i]? := fun i => by rw [Nat.zero_add]
    have below := preorders_by_address place ih a depth
    rw [preorder, addresses, List.map_cons, List.map_cons, below]
    rfl

end Tree

/-! ## Outlines -/

def Expr.tree : Expr → Tree Part
  | .atom a => .node (.expr (.atom a)) []
  | .group o inner c =>
    .node (.expr (.group o inner c)) [.node (.opening o) [], inner.tree, .node (.closing c) []]
  | .percent operand sign => .node (.expr (.percent operand sign)) [operand.tree]
  | .binary op sign left right => .node (.expr (.binary op sign left right)) [left.tree, right.tree]

def Part.tree : Part → Tree Part
  | .formula f => .node (.formula f) [.node .sign [], f.body.tree]
  | .expr e => e.tree
  | mark => .node mark []

theorem Part.tree_eq (p : Part) : p.tree = .node p (p.children.map Part.tree) := by
  rcases p with f | _ | _ | _ | e
  case expr => cases e <;> rfl
  all_goals rfl

/-- An outline is a walk through the tree of what it outlines. -/
theorem walk_tree (stack : List (Part × Nat)) :
    Tree.walk (stack.map fun q => (q.1.tree, q.2)) = (walk stack).map fun q => (q.1.tree, q.2) := by
  induction stack using walk.induct with
  | case1 => rw [walk, List.map_nil, Tree.walk]
  | case2 p depth stack ih =>
    rw [walk_cons, List.map_cons, List.map_cons, ← ih, Tree.walk, Tree.push_eq, Part.tree_eq,
      Tree.children]
    simp [Function.comp_def]

/-! ## Cells -/

/-- A token that names a cell: a name that is a cell key, and no truth value. -/
def Token.NamesCell (t : Token) : Prop :=
  t.kind = .name ∧ isCellKey t.text = true ∧ ¬ IsTruthWord t.text

instance : DecidablePred Token.NamesCell := fun t =>
  inferInstanceAs (Decidable (t.kind = .name ∧ isCellKey t.text = true ∧
    ¬ (upper t.text = "TRUE" ∨ upper t.text = "FALSE")))

def Token.cell (t : Token) : Atom := ⟨.cell, t.text, t.start⟩

theorem not_names_of_kind {t : Token} {kind : TokenKind} (is : t.kind = kind)
    (other : kind ≠ .name) : ¬ t.NamesCell := fun names => other (is.symm.trans names.1)

/-- The cells of a phrase are those that its tokens name, in their order. -/
theorem Derives.cells_eq {level : Level} {ts : List Token} {e : Expr} (h : Derives level ts e) :
    e.cells = (ts.filter fun t => t.NamesCell).map Token.cell := by
  induction h with
  | number kind => simp [Expr.cells, not_names_of_kind kind]
  | text kind => simp [Expr.cells, not_names_of_kind kind]
  | truth kind word => simp [Expr.cells, Token.NamesCell, word]
  | cell kind word key => simp [Expr.cells, Token.NamesCell, Token.cell, kind, word, key]
  | name kind word key => simp [Expr.cells, Token.NamesCell, key]
  | group opens inner closes ih =>
    simp [Expr.cells, ih, not_names_of_kind opens, not_names_of_kind closes]
  | operand proper inner ih => exact ih
  | operation sign kind first second ihl ihr =>
    simp [Expr.cells, ihl, ihr, not_names_of_kind kind]
  | percent kind inner ih => simp [Expr.cells, ih, not_names_of_kind kind]

theorem cells_of_parse {text : String} {limit : Limit} {f : Formula}
    (parsed : parse text limit = .ok f) : ∃ tokens, scan text = .ok tokens ∧
      f.cells = (tokens.filter fun t => t.NamesCell).map Token.cell := by
  obtain ⟨_, _, tokens, scanned, derives, _⟩ := parse_eq_ok_iff.1 parsed
  have sign : ¬ (Symbol.equal.token 0).NamesCell := not_names_of_kind rfl nofun
  refine ⟨_, scanned, ?_⟩
  rw [Formula.cells_eq, derives.cells_eq, List.filter_cons_of_neg (by simpa using sign)]

theorem InOrder.pairwise_start {ts : List Token} (h : InOrder ts) :
    ts.Pairwise fun t u => t.start < u.start :=
  h.apart.imp_of_mem fun first _ apart => Nat.lt_of_lt_of_le (h.full _ first) apart

/-- A walk with a stack lists the nodes of any tree as recursion does: at their addresses, which are
in the order of the dictionary, each once, and as deep as their addresses are long. The outline of
a part is such a walk through its tree. In a formula that is read the outline lists just the cells
that the tokens of the text name, in their order, and each starts after the one before it. -/
theorem walking_is_recursion :
    (∀ (α : Type) (t : Tree α) (depth : Nat),
      Tree.walk [(t, depth)] = t.preorder depth ∧
      t.addresses.Pairwise (· < ·) ∧
      (∀ path, path ∈ t.addresses ↔ (t.subtree? path).isSome = true) ∧
      (t.preorder depth).map some =
        t.addresses.map fun path => (t.subtree? path).map (·, depth + path.length)) ∧
    (∀ (p : Part) (depth : Nat), walk [(p, depth)] = p.outline depth ∧
      (walk [(p, depth)]).map (fun q => (q.1.tree, q.2)) = Tree.walk [(p.tree, depth)]) ∧
    ∀ text limit f, parse text limit = .ok f →
      f.cells.Pairwise (fun a b => a.start < b.start) ∧
      ∃ tokens, scan text = .ok tokens ∧
        f.cells = (tokens.filter fun t => t.NamesCell).map Token.cell := by
  refine ⟨fun α t depth => ?_, fun p depth => ?_, fun text limit f parsed => ?_⟩
  · refine ⟨?_, t.pairwise_addresses, fun path => Tree.mem_addresses, t.preorder_by_address depth⟩
    rw [Tree.walk_eq, List.flatMap_singleton]
  · exact ⟨walk_eq_outline p depth, (walk_tree [(p, depth)]).symm⟩
  · obtain ⟨tokens, scanned, cells⟩ := cells_of_parse parsed
    refine ⟨?_, tokens, scanned, cells⟩
    have named : InOrder (tokens.filter fun t => t.NamesCell) :=
      (scanned_of_scanFrom scanned).inOrder.sublist List.filter_sublist
    rw [cells, List.pairwise_map]
    exact named.pairwise_start

/-- Cells beside a truth value, a text and a name that are none, one of them in a group. -/
theorem walking_is_recursion_of_names :
    ∃ f, parse "=(b2+True)*A1&\"c3\"-D" usualLimit = .ok f ∧
      f.cells = [⟨.cell, "b2", 2⟩, ⟨.cell, "A1", 11⟩] ∧
      f.cells.Pairwise fun a b => a.start < b.start := by
  have read : (parse "=(b2+True)*A1&\"c3\"-D" usualLimit).toOption.isSome = true := by
    decide +kernel
  obtain ⟨f, found⟩ := Option.isSome_iff_exists.1 read
  have parsed := eq_ok_of_toOption found
  obtain ⟨ascending, tokens, scanned, cells⟩ := walking_is_recursion.2.2 _ _ f parsed
  have named : (scan "=(b2+True)*A1&\"c3\"-D").toOption.map
      (fun tokens => (tokens.filter fun t => t.NamesCell).map Token.cell) =
        some [⟨.cell, "b2", 2⟩, ⟨.cell, "A1", 11⟩] := by
    decide +kernel
  rw [scanned] at named
  exact ⟨f, parsed, cells.trans (Option.some.inj named), ascending⟩

end Worksheet.Formula
