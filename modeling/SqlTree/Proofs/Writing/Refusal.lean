import SqlTree.Proofs.Tree.Parts
import SqlTree.Sql.Node

/-!
# SqlTree — Proofs — what a construct may be refused for

A construct is refused when it lacks something it cannot go without, or when the dialect has no
spelling for it.  `Form.refusals` lists these errors for one construct, without regard to its
subtrees; `Node.refusals` collects them over a whole tree.
-/

namespace SqlTree

variable {α β : Type}

/-- The reason why there is no word. -/
def wordRefusals : Except Error String → List Error
  | .ok _ => []
  | .error e => [e]

def Join.refusals (d : Dialect) (j : Join α) : List Error :=
  match j.kind with
  | .raw => []
  | kind => wordRefusals (d.joinText kind)

def Source.refusals (d : Dialect) (s : Source α) : List Error := s.joins.flatMap (Join.refusals d)

def SetQuantifier.refusals (d : Dialect) : SetQuantifier α → List Error
  | .all | .distinct => []
  | .distinctOn _ =>
    match d with
    | .postgresql => []
    | .generic | .mysql | .sqlite => [.unsupported .distinctOn d]

def Core.refusals (d : Dialect) (c : Core α) : List Error :=
  (c.quantifier?.map (SetQuantifier.refusals d)).getD [] ++
    (if !c.source.isEmpty && c.source.relation?.isNone then [.incomplete .selectRelation]
      else []) ++
    c.source.refusals d

/-- Why a select may not be the operand of a set operator. -/
def Select.operandRefusals (d : Dialect) (isLeft : Bool) (s : Select α) : List Error :=
  match d with
  | .sqlite =>
    if s.isModified then [.unsupported .modifiedOperand d]
    else if s.core?.isNone && !isLeft then [.unsupported .nestedOperand d]
    else []
  | .generic | .postgresql | .mysql => []

def Select.refusals (d : Dialect) : Select α → List Error
  | .single core _ => core.refusals d
  | .compound _ left right _ =>
    left.operandRefusals d true ++ left.refusals d ++
      (right.operandRefusals d false ++ right.refusals d)

def InsertSource.refusals (d : Dialect) : InsertSource α → List Error
  | .values _ => []
  | .select s => s.refusals d

def Insert.refusals (d : Dialect) (s : Insert α) : List Error :=
  (if s.table?.isNone then [.incomplete .insertRelation] else []) ++
    match s.source? with
    | some source => source.refusals d
    | none => if s.columns.isEmpty then [] else [.incomplete .insertValues]

/-- The rows cannot be told apart where they have to be. -/
def Rows.lacksKey (d : Dialect) (r : Rows α) : Bool :=
  r.needsKey && !r.isNative d && r.key?.isNone

def Update.refusals (d : Dialect) (s : Update α) : List Error :=
  (if s.rows.source.relation?.isNone then [.incomplete .updateRelation] else []) ++
    (if s.assignments.isEmpty then [.incomplete .updateAssignments] else []) ++
    (if s.rows.lacksKey d then [.incomplete .updateKey] else []) ++ s.rows.source.refusals d

def Delete.refusals (d : Dialect) (s : Delete α) : List Error :=
  (if s.rows.source.relation?.isNone then [.incomplete .deleteRelation] else []) ++
    (if s.rows.lacksKey d then [.incomplete .deleteKey] else []) ++ s.rows.source.refusals d

/-- What a construct may be refused for, whatever its subtrees. -/
def Form.refusals (d : Dialect) : Form α → List Error
  | .regexp _ _ caseSensitive negated => wordRefusals (d.regexpText caseSensitive negated)
  | .extract _ _ =>
    match d with
    | .sqlite => [.unsupported .extract d]
    | .generic | .postgresql | .mysql => []
  | .join j => j.refusals d
  | .select s => s.refusals d
  | .insert s => s.refusals d
  | .update s => s.refusals d
  | .delete s => s.refusals d
  | _ => []

/-! ### Refusals and maps -/

section
variable (d : Dialect) (f : α → β)

@[simp] theorem Join.refusals_map (j : Join α) : (j.map f).refusals d = j.refusals d := rfl

@[simp] theorem Source.refusals_map (s : Source α) : (s.map f).refusals d = s.refusals d := by
  simp [Source.refusals, Source.map, List.flatMap_map]

@[simp] theorem SetQuantifier.refusals_map (q : SetQuantifier α) :
    (q.map f).refusals d = q.refusals d := by
  cases q <;> rfl

@[simp] theorem Source.isEmpty_map (s : Source α) : (s.map f).isEmpty = s.isEmpty := by
  simp [Source.map, Source.isEmpty]

@[simp] theorem Core.refusals_map (c : Core α) : (c.map f).refusals d = c.refusals d := by
  obtain ⟨_, _, _, _, source, quantifier?, _, _, _⟩ := c
  cases quantifier? <;> simp [Core.refusals, Core.map, Source.map, Source.isEmpty, Source.refusals,
    List.flatMap_map]

@[simp] theorem Modifiers.isEmpty_map (m : Modifiers α) : (m.map f).isEmpty = m.isEmpty := by
  simp [Modifiers.map, Modifiers.isEmpty]

@[simp] theorem Select.isModified_map (s : Select α) : (s.map f).isModified = s.isModified := by
  cases s <;> simp [Select.map, Select.isModified, Select.modifiers]

@[simp] theorem Select.isNone_core?_map (s : Select α) :
    (s.map f).core?.isNone = s.core?.isNone := by
  cases s <;> rfl

@[simp] theorem Select.operandRefusals_map (isLeft : Bool) (s : Select α) :
    (s.map f).operandRefusals d isLeft = s.operandRefusals d isLeft := by
  cases d <;> simp [Select.operandRefusals]

@[simp] theorem Select.refusals_map : ∀ s : Select α, (s.map f).refusals d = s.refusals d
  | .single core _ => core.refusals_map d f
  | .compound _ left right _ => by
      simp [Select.map, Select.refusals, Select.refusals_map left, Select.refusals_map right]

@[simp] theorem Insert.refusals_map (s : Insert α) : (s.map f).refusals d = s.refusals d := by
  obtain ⟨table?, columns, _ | rows | select⟩ := s
  · rfl
  · rfl
  · simp [Insert.refusals, Insert.map, InsertSource.map, InsertSource.refusals]

@[simp] theorem Rows.source_map (r : Rows α) : (r.map f).source = r.source.map f := rfl

@[simp] theorem Source.relation?_map (s : Source α) : (s.map f).relation? = s.relation?.map f :=
  rfl

@[simp] theorem Rows.isNative_map (r : Rows α) : (r.map f).isNative d = r.isNative d := by
  cases d <;> simp [Rows.isNative, Rows.map, Source.map]

@[simp] theorem Rows.needsKey_map (r : Rows α) : (r.map f).needsKey = r.needsKey := by
  simp [Rows.needsKey, Rows.map, Source.map]

@[simp] theorem Rows.lacksKey_map (r : Rows α) : (r.map f).lacksKey d = r.lacksKey d := by
  rw [Rows.lacksKey, Rows.needsKey_map, Rows.isNative_map]
  simp [Rows.lacksKey, Rows.map]

@[simp] theorem Update.refusals_map (s : Update α) : (s.map f).refusals d = s.refusals d := by
  simp [Update.refusals, Update.map]

@[simp] theorem Delete.refusals_map (s : Delete α) : (s.map f).refusals d = s.refusals d := by
  simp [Delete.refusals, Delete.map]

/-- What a construct may be refused for does not depend on its subtrees. -/
@[simp] theorem Form.refusals_map (form : Form α) : (form.map f).refusals d = form.refusals d := by
  cases form with
  | select s => exact s.refusals_map d f
  | insert s => exact s.refusals_map d f
  | update s => exact s.refusals_map d f
  | delete s => exact s.refusals_map d f
  | _ => rfl

end

/-! ### Refusals of a tree -/

namespace Node

/-- What a tree may be refused for. -/
def refusals (d : Dialect) : Node → List Error :=
  fold fun form => form.refusals d ++ form.parts.flatMap (·.2)

theorem refusals_of (d : Dialect) (form : Form Node) :
    (of form).refusals d = form.refusals d ++ form.parts.flatMap (refusals d) := by
  rw [refusals, fold_of, Form.refusals_map, Form.parts_map, List.flatMap_map]

end Node

end SqlTree
