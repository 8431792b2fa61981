import Mathlib.Algebra.GroupWithZero.Nat
import Mathlib.Algebra.Order.BigOperators.Group.List
import Mathlib.Algebra.Order.Group.Nat
import Mathlib.Data.List.Forall2
import SqlTree.Node.Fold

/-!
# SqlTree — Proofs — the parts of a tree

`Form.parts` lists every subtree of a construct, so that changing the subtrees changes the parts
and nothing else (`Form.parts_map`).  A part is smaller than the tree it is part of, and what holds
of a tree whenever it holds of its parts holds of every tree (`Node.induction`).
-/

namespace SqlTree

variable {α β : Type} (f : α → β)

/-- What is made in two ways from the items of a list is related item by item. -/
theorem forall₂_map {R : α → β → Prop} {γ : Type} {xs : List γ} {a : γ → α} {b : γ → β}
    (h : ∀ x ∈ xs, R (a x) (b x)) : List.Forall₂ R (xs.map a) (xs.map b) :=
  List.forall₂_map_left_iff.mpr (List.forall₂_map_right_iff.mpr (List.forall₂_same.mpr h))

/-! ### Parts and maps -/

@[simp] theorem JoinConstraint.parts_map : ∀ c : JoinConstraint α, (c.map f).parts = c.parts.map f
  | .on _ | .columns _ => rfl

@[simp] theorem Join.parts_map : ∀ j : Join α, (j.map f).parts = j.parts.map f
  | ⟨_, _, none⟩ => rfl
  | ⟨_, _, some c⟩ => by simp [Join.map, Join.parts]

@[simp] theorem Source.parts_map (s : Source α) : (s.map f).parts = s.parts.map f := by
  simp [Source.map, Source.parts, Option.toList_map, List.flatMap_map, List.map_flatMap]

@[simp] theorem Window.parts_map (w : Window α) : (w.map f).parts = w.parts.map f := by
  simp [Window.map, Window.parts]

@[simp] theorem WindowRef.parts_map : ∀ w : WindowRef α, (w.map f).parts = w.parts.map f
  | .empty | .named _ => rfl
  | .inline w => w.parts_map f

@[simp] theorem Case.parts_map (c : Case α) : (c.map f).parts = c.parts.map f := by
  simp [Case.map, Case.parts, Option.toList_map, List.flatMap_map, List.map_flatMap]

@[simp] theorem SetQuantifier.parts_map :
    ∀ q : SetQuantifier α, (q.map f).parts = q.parts.map f
  | .all | .distinct | .distinctOn _ => rfl

@[simp] theorem Core.children_map (c : Core α) : (c.map f).children = c.children.map f := by
  simp [Core.map, Core.children, NamedWindow.map, List.flatMap_map, List.map_flatMap]

@[simp] theorem Core.parts_map (c : Core α) : (c.map f).parts = c.parts.map f := by
  rw [Core.parts, Core.parts, Core.children_map]
  cases hq : c.quantifier? <;> simp [Core.map, hq]

@[simp] theorem Modifiers.before_map (m : Modifiers α) : (m.map f).before = m.before.map f := by
  cases hw : m.with? <;> simp [Modifiers.map, Modifiers.before, With.map, Cte.map, hw]

@[simp] theorem Modifiers.after_map (m : Modifiers α) : (m.map f).after = m.after.map f := by
  simp [Modifiers.map, Modifiers.after, Option.toList_map]

@[simp] theorem Select.children_map : ∀ s : Select α, (s.map f).children = s.children.map f
  | .single _ _ => by simp [Select.map, Select.children]
  | .compound _ left right _ => by
      simp [Select.map, Select.children, Select.children_map left, Select.children_map right]

@[simp] theorem Select.parts_map : ∀ s : Select α, (s.map f).parts = s.parts.map f
  | .single _ _ => by simp [Select.map, Select.parts]
  | .compound _ left right _ => by
      simp [Select.map, Select.parts, Select.parts_map left, Select.parts_map right]

@[simp] theorem InsertSource.parts_map : ∀ s : InsertSource α, (s.map f).parts = s.parts.map f
  | .values _ => by simp [InsertSource.map, InsertSource.parts, List.map_flatten]
  | .select s => s.parts_map f

@[simp] theorem Rows.after_map (r : Rows α) : (r.map f).after = r.after.map f := by
  simp [Rows.map, Rows.after, Option.toList_map]

@[simp] theorem Update.children_map (s : Update α) : (s.map f).children = s.children.map f := by
  simp [Update.children, Update.map, ← Source.parts_map]
  simp [Rows.map]

@[simp] theorem Delete.children_map (s : Delete α) : (s.map f).children = s.children.map f := by
  simp [Delete.children, Delete.map, ← Source.parts_map]
  simp [Rows.map]

/-- The parts of a form with changed subtrees are its parts, changed. -/
@[simp] theorem Form.parts_map (form : Form α) : (form.map f).parts = form.parts.map f := by
  cases form with
  | insert s => cases hs : s.source? <;> simp [Form.map, Form.parts, Insert.map, hs]
  | update s =>
      simp [Form.map, Form.parts, Update.map, Rows.map, Option.toList_map, ← Update.children_map]
  | delete s =>
      simp [Form.map, Form.parts, Delete.map, Rows.map, Option.toList_map, ← Delete.children_map]
  | values rows => simp [Form.map, Form.parts, Form.children, List.map_flatten]
  | _ => simp [Form.map, Form.parts, Form.children, Call.map, SortKey.map, NamedWindow.map, Cte.map]

/-! ### Maps after maps -/

section
variable {γ : Type} (g : β → γ)

@[simp] theorem JoinConstraint.map_map :
    ∀ c : JoinConstraint α, (c.map f).map g = c.map fun x => g (f x)
  | .on _ | .columns _ => rfl

@[simp] theorem Join.map_map (j : Join α) : (j.map f).map g = j.map fun x => g (f x) := by
  simp [Join.map, Function.comp_def]

@[simp] theorem Source.map_map (s : Source α) : (s.map f).map g = s.map fun x => g (f x) := by
  simp [Source.map, Function.comp_def]

@[simp] theorem Window.map_map (w : Window α) : (w.map f).map g = w.map fun x => g (f x) := by
  simp [Window.map, Function.comp_def]

@[simp] theorem WindowRef.map_map :
    ∀ w : WindowRef α, (w.map f).map g = w.map fun x => g (f x)
  | .empty | .named _ => rfl
  | .inline w => congrArg _ (w.map_map f g)

@[simp] theorem NamedWindow.map_map (w : NamedWindow α) :
    (w.map f).map g = w.map fun x => g (f x) := by
  simp [NamedWindow.map]

@[simp] theorem SetQuantifier.map_map :
    ∀ q : SetQuantifier α, (q.map f).map g = q.map fun x => g (f x)
  | .all | .distinct => rfl
  | .distinctOn exprs => by simp [SetQuantifier.map, Function.comp_def]

@[simp] theorem Core.map_map (c : Core α) : (c.map f).map g = c.map fun x => g (f x) := by
  simp [Core.map, Function.comp_def]

@[simp] theorem Modifiers.map_map (m : Modifiers α) :
    (m.map f).map g = m.map fun x => g (f x) := by
  simp [Modifiers.map, With.map, Cte.map, Function.comp_def]

@[simp] theorem Select.map_map : ∀ s : Select α, (s.map f).map g = s.map fun x => g (f x)
  | .single _ _ => by simp [Select.map]
  | .compound _ left right _ => by
      simp [Select.map, Select.map_map left, Select.map_map right]

@[simp] theorem InsertSource.map_map :
    ∀ s : InsertSource α, (s.map f).map g = s.map fun x => g (f x)
  | .values rows => by simp [InsertSource.map, Function.comp_def]
  | .select s => by simp [InsertSource.map]

@[simp] theorem Rows.map_map (r : Rows α) : (r.map f).map g = r.map fun x => g (f x) := by
  simp [Rows.map, Function.comp_def]

/-- Subtrees changed twice are changed by both changes. -/
@[simp] theorem Form.map_map (form : Form α) : (form.map f).map g = form.map fun x => g (f x) := by
  cases form <;>
    simp [Form.map, Call.map, Case.map, SortKey.map, Cte.map, Insert.map, Update.map, Delete.map,
      Function.comp_def]

end

/-! ### The map that changes nothing -/

@[simp] theorem JoinConstraint.map_id : ∀ c : JoinConstraint α, (c.map fun x => x) = c
  | .on _ | .columns _ => rfl

@[simp] theorem Join.map_id (j : Join α) : (j.map fun x => x) = j := by simp [Join.map]

@[simp] theorem Source.map_id (s : Source α) : (s.map fun x => x) = s := by simp [Source.map]

@[simp] theorem Window.map_id (w : Window α) : (w.map fun x => x) = w := by simp [Window.map]

@[simp] theorem WindowRef.map_id : ∀ w : WindowRef α, (w.map fun x => x) = w
  | .empty | .named _ => rfl
  | .inline w => congrArg _ w.map_id

@[simp] theorem NamedWindow.map_id (w : NamedWindow α) : (w.map fun x => x) = w := by
  simp [NamedWindow.map]

@[simp] theorem SetQuantifier.map_id : ∀ q : SetQuantifier α, (q.map fun x => x) = q
  | .all | .distinct => rfl
  | .distinctOn exprs => by simp [SetQuantifier.map]

@[simp] theorem Core.map_id (c : Core α) : (c.map fun x => x) = c := by simp [Core.map]

@[simp] theorem Modifiers.map_id (m : Modifiers α) : (m.map fun x => x) = m := by
  simp [Modifiers.map, With.map, Cte.map]

@[simp] theorem Select.map_id : ∀ s : Select α, (s.map fun x => x) = s
  | .single _ _ => by simp [Select.map]
  | .compound _ left right _ => by simp [Select.map, left.map_id, right.map_id]

@[simp] theorem InsertSource.map_id : ∀ s : InsertSource α, (s.map fun x => x) = s
  | .values _ | .select _ => by simp [InsertSource.map]

@[simp] theorem Rows.map_id (r : Rows α) : (r.map fun x => x) = r := by simp [Rows.map]

/-- Subtrees that are kept keep the form. -/
@[simp] theorem Form.map_id (form : Form α) : (form.map fun x => x) = form := by
  cases form <;>
    simp [Form.map, Call.map, Case.map, SortKey.map, Cte.map, Insert.map, Update.map, Delete.map]

/-! ### Induction over trees -/

namespace Node

/-- The number of constructs in a tree. -/
def size : Node → Nat := fold fun form => 1 + (form.parts.map (·.2)).sum

theorem size_of (form : Form Node) : (of form).size = 1 + (form.parts.map size).sum := by
  rw [size, fold_of, Form.parts_map, List.map_map]
  rfl

theorem size_lt_of_mem_parts {form : Form Node} {n : Node} (h : n ∈ form.parts) :
    n.size < (of form).size := by
  have hle : n.size ≤ (form.parts.map size).sum := List.le_sum_of_mem (List.mem_map_of_mem h)
  rw [size_of]
  omega

/-- **Induction over trees**: what holds of every construct whose parts it holds of holds of every
tree. -/
theorem induction {P : Node → Prop}
    (step : ∀ form : Form Node, (∀ n ∈ form.parts, P n) → P (of form)) (n : Node) : P n := by
  induction hn : n.size using Nat.strong_induction_on generalizing n with
  | _ size ih =>
      obtain ⟨form⟩ := n
      refine step form fun part hpart => ih part.size ?_ part rfl
      rw [← hn]
      exact size_lt_of_mem_parts hpart

/-! ### Subtrees -/

/-- The tree and every subtree of it. -/
def subtrees : Node → List Node :=
  fold fun form => of (form.map (·.1)) :: form.parts.flatMap (·.2)

theorem subtrees_of (form : Form Node) :
    (of form).subtrees = of form :: form.parts.flatMap subtrees := by
  rw [subtrees, fold_of, Form.map_map, Form.parts_map, List.flatMap_map, Form.map_id]

theorem mem_subtrees_iff {n m : Node} :
    m ∈ n.subtrees ↔ m = n ∨ ∃ p ∈ n.form.parts, m ∈ p.subtrees := by
  obtain ⟨form⟩ := n
  rw [subtrees_of, List.mem_cons, List.mem_flatMap]
  rfl

theorem self_mem_subtrees (n : Node) : n ∈ n.subtrees := mem_subtrees_iff.mpr (.inl rfl)

theorem mem_subtrees_of_mem_parts {form : Form Node} {n m : Node} (hn : n ∈ form.parts)
    (hm : m ∈ n.subtrees) : m ∈ (of form).subtrees :=
  mem_subtrees_iff.mpr (.inr ⟨n, hn, hm⟩)

end Node

end SqlTree
