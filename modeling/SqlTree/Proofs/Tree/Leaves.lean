import SqlTree.Proofs.Tree.Parts

/-!
# SqlTree — Proofs — the leaves of a tree

The leaves that hold a value: values, values compared with a column, and parameters.  `Node.leaves`
lists them from left to right, each as the slot that it becomes.  It goes by the tree alone and
knows nothing of how, or whether, a leaf is written.

`Node.raws` lists in the same way the pieces of SQL that the caller spells.
-/

namespace SqlTree

variable {α : Type}

/-- The slot that a construct is by itself. -/
def Form.own : Form α → List Bind
  | quoted v | casted v _ => [⟨none, some v⟩]
  | param b => [b]
  | _ => []

theorem Form.own_map {β : Type} (f : α → β) (form : Form α) : (form.map f).own = form.own := by
  cases form <;> rfl

namespace Node

/-- The slots of a tree, from left to right. -/
def leaves : Node → List Bind := fold fun form => form.own ++ form.parts.flatMap (·.2)

theorem leaves_of (form : Form Node) :
    (of form).leaves = form.own ++ form.parts.flatMap leaves := by
  rw [leaves, fold_of, Form.own_map, Form.parts_map, List.flatMap_map]

end Node

/-! ### Pieces that the caller spells -/

/-- The name of a function and the name of the result, which may be implicit. -/
def Call.raws (c : Call α) : List String :=
  let name :=
    match c.kind with
    | .named name => [name]
    | _ => []
  name ++ (c.alias?.map (·.name)).toList

def Lock.raws : Lock → List String
  | forUpdate => []
  | raw text => [text]

def Modifiers.raws (m : Modifiers α) : List String := (m.lock?.map Lock.raws).getD []

/-- The locks of a select and of its operands. -/
def Select.raws : Select α → List String
  | single _ m => m.raws
  | compound _ left right m => m.raws ++ left.raws ++ right.raws

def InsertSource.raws : InsertSource α → List String
  | values _ => []
  | select s => s.raws

/-- The pieces of SQL that a construct has by itself. -/
def Form.raws : Form α → List String
  | sql text => [text]
  | unary (.leading text) _ => [text]
  | binary (.custom text) _ _ => [text]
  | call c => c.raws
  | extract _ field => [field]
  | cast _ typeName => [typeName]
  | select s => s.raws
  | insert s => (s.source?.map InsertSource.raws).getD []
  | _ => []

@[simp] theorem Select.raws_map {β : Type} (f : α → β) : ∀ s : Select α, (s.map f).raws = s.raws
  | .single _ _ => rfl
  | .compound _ left right _ => by
      rw [Select.map, Select.raws, Select.raws_map f left, Select.raws_map f right]
      rfl

@[simp] theorem Form.raws_map {β : Type} (f : α → β) (form : Form α) :
    (form.map f).raws = form.raws := by
  cases form with
  | unary op _ | binary op _ _ => cases op <;> rfl
  | select s => exact s.raws_map f
  | insert s =>
      obtain ⟨_, _, _ | _ | s⟩ := s
      · rfl
      · rfl
      · exact s.raws_map f
  | _ => rfl

namespace Node

/-- The pieces of SQL in a tree that the caller spells. -/
def raws : Node → List String := fold fun form => form.raws ++ form.parts.flatMap (·.2)

theorem raws_of (form : Form Node) : (of form).raws = form.raws ++ form.parts.flatMap raws := by
  rw [raws, fold_of, Form.raws_map, Form.parts_map, List.flatMap_map]

end Node

end SqlTree
