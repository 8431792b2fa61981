import SqlTree.Proofs.Lexing.Statement
import SqlTree.Proofs.Precedence.Formula
import SqlTree.Proofs.Seams.Text

/-!
# SqlTree — Proofs — how a tree begins

The first character that is written for a tree depends on its left spine: on the constructs whose
text begins with the text of their first part (`Form.head?`), down to one that writes something of
its own first (`Form.signs`).

* `Node.isSigned`: the text of the tree may begin with a sign.
* `Node.KeepsApart`: what is written right behind a text that the caller spells begins with none.
-/

namespace SqlTree

variable {α β : Type}

/-- The subtree, unless it binds too loosely to go without parentheses. -/
def bare (node : α → Node) (least : Nat) (x : α) : Option α :=
  if (node x).strength < least then none else some x

theorem bare_map (f : α → β) (node : β → Node) (least : Nat) (x : α) :
    bare node least (f x) = (bare (fun x => node (f x)) least x).map f := by
  unfold bare
  split
  · rfl
  · rfl

/-! ### The first part -/

/-- Parentheses begin with their operand only if it has brought its own. -/
def UnaryOperator.head? (d : Dialect) (op : UnaryOperator) (node : α → Node) (operand : α) :
    Option α :=
  match op, d with
  | grouping, _ =>
    if (node operand).isGrouping || (node operand).isSelect then some operand else none
  | bin, .generic | bin, .postgresql | bin, .sqlite => some operand
  | _, _ => none

def BinaryOperator.head? (d : Dialect) (op : BinaryOperator) (node : α → Node) (left : α) :
    Option α :=
  match op, d with
  | named, _ | assignment, _ => some left
  | .concat, .mysql => none
  | op, _ => bare node (leftLeast op.strength) left

/-- The part whose text begins the text of the construct. -/
def Form.head? (d : Dialect) (node : α → Node) : Form α → Option α
  | tableAlias relation _ => bare node Strength.atom relation
  | list items => items.head?
  | unary op operand => op.head? d node operand
  | binary op left _ => op.head? d node left
  | and items => items.head?.bind (bare node Strength.conjunction)
  | matching left .. | regexp left .. => bare node Strength.compared left
  | join ⟨.raw, relation, _⟩ => some relation
  | sortKey k => some k.expr
  | windowed expr _ => bare node Strength.atom expr
  | _ => none

/-- What the construct writes first by itself begins with a sign. -/
def Form.signs (d : Dialect) : Form α → Bool
  | sql text | unary (.leading text) _ => beginsSign text.toList
  | call c => beginsSign c.kind.text.toList
  | star => true
  | form => form.own.any fun b => beginsSign ((Lexeme.slot b).inline d).toList

/-- The parts that are written right behind a text that the caller spells: the operand of a prefix
operator, unless it is in parentheses, and what follows the first argument of EXISTS. -/
def Form.abutting (node : α → Node) : Form α → List α
  | unary (.leading _) operand => (bare node Strength.prefixed operand).toList
  | call ⟨.exists, arguments, _, _⟩ => arguments.tail.filterMap (bare node Strength.atom)
  | _ => []

/-! ### Forms with changed subtrees -/

section
variable (d : Dialect) (f : α → β) (node : β → Node) (form : Form α)

theorem Form.head?_map :
    (form.map f).head? d node = (form.head? d fun x => node (f x)).map f := by
  cases form with
  | list items => cases items <;> rfl
  | and items => cases items <;> simp [Form.map, head?, bare_map]
  | unary op operand =>
      cases op with
      | grouping =>
          simp only [Form.map, head?, UnaryOperator.head?]
          split
          · rfl
          · rfl
      | bin => cases d <;> rfl
      | _ => rfl
  | binary op left right => cases op <;> cases d <;> first | rfl | exact bare_map ..
  | join j =>
      obtain ⟨kind, _, _⟩ := j
      cases kind <;> rfl
  | tableAlias | matching | regexp | windowed => exact bare_map ..
  | _ => rfl

theorem Form.signs_map : (form.map f).signs d = form.signs d := by
  cases form with
  | unary op operand => cases op <;> rfl
  | _ => rfl

theorem Form.abutting_map :
    (form.map f).abutting node = (form.abutting fun x => node (f x)).map f := by
  cases form with
  | unary op operand =>
      cases op with
      | leading text => simp [Form.map, abutting, bare_map, Option.toList_map]
      | _ => rfl
  | call c =>
      obtain ⟨kind, arguments, _, _⟩ := c
      cases kind with
      | «exists» =>
          simp only [Form.map, Call.map, abutting, ← List.map_tail, List.filterMap_map,
            List.map_filterMap, Function.comp_def, bare_map]
      | _ => rfl
  | _ => rfl

end

/-! ### Where these parts stand -/

section
variable {d : Dialect} {node : α → Node} {x : α}

theorem eq_of_mem_bare {least : Nat} {y : α} (h : x ∈ bare node least y) : x = y := by
  unfold bare at h
  split at h
  · cases h
  · cases h
    rfl

theorem UnaryOperator.eq_of_mem_head? {op : UnaryOperator} {operand : α}
    (h : x ∈ op.head? d node operand) : x = operand := by
  unfold head? at h
  split at h
  · split at h
    · cases h
      rfl
    · cases h
  all_goals cases h
  all_goals rfl

theorem BinaryOperator.eq_of_mem_head? {op : BinaryOperator} {left : α}
    (h : x ∈ op.head? d node left) : x = left := by
  unfold head? at h
  split at h
  · cases h
    rfl
  · cases h
    rfl
  · cases h
  · exact eq_of_mem_bare h

theorem Form.mem_parts_of_mem_head? {form : Form α} (h : x ∈ form.head? d node) :
    x ∈ form.parts := by
  cases form with
  | tableAlias _ _ | windowed _ _ | matching _ _ _ _ _ | regexp _ _ _ _ =>
      simp [parts, children, eq_of_mem_bare h]
  | list items => exact List.mem_of_head? h
  | unary op operand => simp [parts, children, UnaryOperator.eq_of_mem_head? h]
  | binary op left right => simp [parts, children, BinaryOperator.eq_of_mem_head? h]
  | and items =>
      obtain ⟨first, hfirst, hx⟩ := Option.bind_eq_some_iff.mp h
      exact eq_of_mem_bare hx ▸ List.mem_of_head? hfirst
  | join j =>
      obtain ⟨kind, relation, constraint?⟩ := j
      cases kind with
      | raw =>
          cases h
          exact List.mem_cons_self
      | _ => cases h
  | sortKey k =>
      cases h
      exact List.mem_singleton_self _
  | _ => cases h

theorem Form.mem_parts_of_mem_abutting {form : Form α} (h : x ∈ form.abutting node) :
    x ∈ form.parts := by
  cases form with
  | unary op operand =>
      cases op with
      | leading text => simp [parts, children, eq_of_mem_bare (Option.mem_toList.mp h)]
      | _ => cases h
  | call c =>
      obtain ⟨kind, arguments, _, _⟩ := c
      cases kind with
      | «exists» =>
          obtain ⟨y, hy, hx⟩ := List.mem_filterMap.mp h
          exact eq_of_mem_bare hx ▸ List.mem_of_mem_tail hy
      | _ => cases h
  | _ => cases h

end

/-! ### Trees -/

namespace Node

/-- The text of the tree may begin with a sign: one that the caller spells, the star, or the sign of
a negative number. -/
def isSigned (d : Dialect) : Node → Bool :=
  fold fun form => form.signs d || (form.head? d Prod.fst).any Prod.snd

theorem isSigned_of (d : Dialect) (form : Form Node) :
    (of form).isSigned d = (form.signs d || (form.head? d fun n => n).any (isSigned d)) := by
  rw [isSigned, fold_of, Form.signs_map, Form.head?_map, Option.any_map]

/-- No construct in the tree writes a part that may begin with a sign right behind a text that the
caller spells. -/
def KeepsApart (d : Dialect) (n : Node) : Prop :=
  ∀ m ∈ n.subtrees, ∀ e ∈ m.form.abutting fun n => n, e.isSigned d = false

instance (d : Dialect) (n : Node) : Decidable (n.KeepsApart d) :=
  inferInstanceAs (Decidable (∀ m ∈ n.subtrees, _))

theorem KeepsApart.of_mem_parts {d : Dialect} {form : Form Node} (h : (of form).KeepsApart d)
    {n : Node} (hn : n ∈ form.parts) : n.KeepsApart d := fun m hm =>
  h m (mem_subtrees_of_mem_parts hn hm)

end Node

end SqlTree
