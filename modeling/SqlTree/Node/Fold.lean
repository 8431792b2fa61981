import SqlTree.Node.Form

/-!
# SqlTree — Node — trees

A tree is a form of trees.  `Node.fold` computes a result for every subtree from the bottom up: at
each construct it is given the form with every subtree beside its result.  Every other recursion
over trees is an instance of it, except where one path through the tree is followed.

* `Node.fold_of` says what a fold does at one construct, with no recursion left in it but the fold
  of the subtrees.
-/

namespace SqlTree

/-- A statement tree. -/
inductive Node where
  | of (form : Form Node)

namespace Node

/-- The outermost layer of a tree. -/
def form : Node → Form Node
  | of form => form

section Fold
variable {β : Type}

mutual

/-- The result for a tree, computed from the results for its subtrees. -/
def fold (step : Form (Node × β) → β) : Node → β
  | of form => step (foldForm step form)

/-- A form with every subtree beside its result. -/
def foldForm (step : Form (Node × β) → β) : Form Node → Form (Node × β)
  | .table t => .table t
  | .tableAlias relation name => .tableAlias (relation, fold step relation) name
  | .column c => .column c
  | .unqualified c => .unqualified c
  | .sql text => .sql text
  | .quoted value => .quoted value
  | .casted value c => .casted value c
  | .param b => .param b
  | .bool b => .bool b
  | .star => .star
  | .list items => .list (foldList step items)
  | .unary op operand => .unary op (operand, fold step operand)
  | .binary op left right => .binary op (left, fold step left) (right, fold step right)
  | .and items => .and (foldList step items)
  | .matching left right escape? sensitive negated =>
    .matching (left, fold step left) (right, fold step right) escape? sensitive negated
  | .regexp left right sensitive negated =>
    .regexp (left, fold step left) (right, fold step right) sensitive negated
  | .call ⟨kind, arguments, distinct, alias?⟩ =>
    .call ⟨kind, foldList step arguments, distinct, alias?⟩
  | .extract expr field => .extract (expr, fold step expr) field
  | .cast expr typeName => .cast (expr, fold step expr) typeName
  | .cases ⟨subject?, arms, default?⟩ =>
    .cases ⟨foldOption step subject?, foldArms step arms, foldOption step default?⟩
  | .join j => .join (foldJoin step j)
  | .sortKey ⟨expr, direction, nulls?⟩ => .sortKey ⟨(expr, fold step expr), direction, nulls?⟩
  | .windowed expr w => .windowed (expr, fold step expr) (foldWindowRef step w)
  | .window w => .window (foldWindow step w)
  | .namedWindow ⟨name, w⟩ => .namedWindow ⟨name, foldWindow step w⟩
  | .cte ⟨name, relation, materialized?⟩ =>
    .cte ⟨name, (relation, fold step relation), materialized?⟩
  | .values rows => .values (foldTable step rows)
  | .select s => .select (foldSelect step s)
  | .insert ⟨table?, columns, source?⟩ => .insert ⟨table?, columns, foldInsertSource step source?⟩
  | .update ⟨rows, assignments⟩ => .update ⟨foldRows step rows, foldList step assignments⟩
  | .delete ⟨rows⟩ => .delete ⟨foldRows step rows⟩

def foldList (step : Form (Node × β) → β) : List Node → List (Node × β)
  | [] => []
  | n :: ns => (n, fold step n) :: foldList step ns

def foldOption (step : Form (Node × β) → β) : Option Node → Option (Node × β)
  | none => none
  | some n => some (n, fold step n)

def foldTable (step : Form (Node × β) → β) : List (List Node) → List (List (Node × β))
  | [] => []
  | row :: rows => foldList step row :: foldTable step rows

def foldArms (step : Form (Node × β) → β) :
    List (Node × Node) → List ((Node × β) × (Node × β))
  | [] => []
  | (m, n) :: arms => ((m, fold step m), (n, fold step n)) :: foldArms step arms

def foldConstraint (step : Form (Node × β) → β) :
    Option (JoinConstraint Node) → Option (JoinConstraint (Node × β))
  | none => none
  | some (.on predicate) => some (.on (predicate, fold step predicate))
  | some (.columns names) => some (.columns names)

def foldJoin (step : Form (Node × β) → β) : Join Node → Join (Node × β)
  | ⟨kind, relation, constraint?⟩ =>
    ⟨kind, (relation, fold step relation), foldConstraint step constraint?⟩

def foldJoins (step : Form (Node × β) → β) : List (Join Node) → List (Join (Node × β))
  | [] => []
  | j :: joins => foldJoin step j :: foldJoins step joins

def foldSource (step : Form (Node × β) → β) : Source Node → Source (Node × β)
  | ⟨relation?, joins⟩ => ⟨foldOption step relation?, foldJoins step joins⟩

def foldWindow (step : Form (Node × β) → β) : Window Node → Window (Node × β)
  | ⟨partitions, orders, frame?⟩ => ⟨foldList step partitions, foldList step orders, frame?⟩

def foldWindowRef (step : Form (Node × β) → β) : WindowRef Node → WindowRef (Node × β)
  | .empty => .empty
  | .named name => .named name
  | .inline w => .inline (foldWindow step w)

def foldWindows (step : Form (Node × β) → β) :
    List (NamedWindow Node) → List (NamedWindow (Node × β))
  | [] => []
  | ⟨name, w⟩ :: windows => ⟨name, foldWindow step w⟩ :: foldWindows step windows

def foldQuantifier (step : Form (Node × β) → β) :
    Option (SetQuantifier Node) → Option (SetQuantifier (Node × β))
  | none => none
  | some .all => some .all
  | some .distinct => some .distinct
  | some (.distinctOn exprs) => some (.distinctOn (foldList step exprs))

def foldCore (step : Form (Node × β) → β) : Core Node → Core (Node × β)
  | ⟨projections, filters, groups, havings, source, quantifier?, windows, comments, hints⟩ =>
    ⟨foldList step projections, foldList step filters, foldList step groups,
      foldList step havings, foldSource step source, foldQuantifier step quantifier?,
      foldWindows step windows, comments, hints⟩

def foldCtes (step : Form (Node × β) → β) : List (Cte Node) → List (Cte (Node × β))
  | [] => []
  | ⟨name, relation, materialized?⟩ :: ctes =>
    ⟨name, (relation, fold step relation), materialized?⟩ :: foldCtes step ctes

def foldWith (step : Form (Node × β) → β) : Option (With Node) → Option (With (Node × β))
  | none => none
  | some ⟨isRecursive, ctes⟩ => some ⟨isRecursive, foldCtes step ctes⟩

def foldModifiers (step : Form (Node × β) → β) : Modifiers Node → Modifiers (Node × β)
  | ⟨with?, orders, limit?, offset?, lock?⟩ =>
    ⟨foldWith step with?, foldList step orders, foldOption step limit?, foldOption step offset?,
      lock?⟩

def foldSelect (step : Form (Node × β) → β) : Select Node → Select (Node × β)
  | .single core modifiers => .single (foldCore step core) (foldModifiers step modifiers)
  | .compound op left right modifiers =>
    .compound op (foldSelect step left) (foldSelect step right) (foldModifiers step modifiers)

def foldInsertSource (step : Form (Node × β) → β) :
    Option (InsertSource Node) → Option (InsertSource (Node × β))
  | none => none
  | some (.values rows) => some (.values (foldTable step rows))
  | some (.select s) => some (.select (foldSelect step s))

def foldRows (step : Form (Node × β) → β) : Rows Node → Rows (Node × β)
  | ⟨source, filters, orders, limit?, offset?, key?⟩ =>
    ⟨foldSource step source, foldList step filters, foldList step orders, foldOption step limit?,
      foldOption step offset?, foldOption step key?⟩

end

variable (step : Form (Node × β) → β)

/-- A subtree beside its result. -/
abbrev folded (n : Node) : Node × β := (n, fold step n)

theorem foldList_eq_map : ∀ ns : List Node, foldList step ns = ns.map (folded step)
  | [] => rfl
  | n :: ns => by rw [foldList, foldList_eq_map ns]; rfl

theorem foldOption_eq_map : ∀ n? : Option Node, foldOption step n? = n?.map (folded step)
  | none | some _ => rfl

theorem foldTable_eq_map :
    ∀ rows : List (List Node), foldTable step rows = rows.map (·.map (folded step))
  | [] => rfl
  | row :: rows => by rw [foldTable, foldTable_eq_map rows, foldList_eq_map]; rfl

theorem foldArms_eq_map : ∀ arms : List (Node × Node),
    foldArms step arms = arms.map fun arm => (folded step arm.1, folded step arm.2)
  | [] => rfl
  | (_, _) :: arms => by rw [foldArms, foldArms_eq_map arms]; rfl

theorem foldConstraint_eq_map : ∀ c? : Option (JoinConstraint Node),
    foldConstraint step c? = c?.map (·.map (folded step))
  | none | some (.on _) | some (.columns _) => rfl

theorem foldJoin_eq_map : ∀ j : Join Node, foldJoin step j = j.map (folded step)
  | ⟨_, _, c?⟩ => by rw [foldJoin, foldConstraint_eq_map]; rfl

theorem foldJoins_eq_map :
    ∀ joins : List (Join Node), foldJoins step joins = joins.map (·.map (folded step))
  | [] => rfl
  | j :: joins => by rw [foldJoins, foldJoins_eq_map joins, foldJoin_eq_map]; rfl

theorem foldSource_eq_map : ∀ s : Source Node, foldSource step s = s.map (folded step)
  | ⟨_, _⟩ => by rw [foldSource, foldOption_eq_map, foldJoins_eq_map]; rfl

theorem foldWindow_eq_map : ∀ w : Window Node, foldWindow step w = w.map (folded step)
  | ⟨_, _, _⟩ => by rw [foldWindow, foldList_eq_map, foldList_eq_map]; rfl

theorem foldWindowRef_eq_map :
    ∀ w : WindowRef Node, foldWindowRef step w = w.map (folded step)
  | .empty | .named _ => rfl
  | .inline w => by rw [foldWindowRef, foldWindow_eq_map]; rfl

theorem foldWindows_eq_map :
    ∀ ws : List (NamedWindow Node), foldWindows step ws = ws.map (·.map (folded step))
  | [] => rfl
  | ⟨_, _⟩ :: ws => by rw [foldWindows, foldWindows_eq_map ws, foldWindow_eq_map]; rfl

theorem foldQuantifier_eq_map : ∀ q? : Option (SetQuantifier Node),
    foldQuantifier step q? = q?.map (·.map (folded step))
  | none | some .all | some .distinct => rfl
  | some (.distinctOn _) => by rw [foldQuantifier, foldList_eq_map]; rfl

theorem foldCore_eq_map : ∀ c : Core Node, foldCore step c = c.map (folded step)
  | ⟨_, _, _, _, _, _, _, _, _⟩ => by
    simp only [foldCore, foldList_eq_map, foldSource_eq_map, foldQuantifier_eq_map,
      foldWindows_eq_map, Core.map]

theorem foldCtes_eq_map :
    ∀ ctes : List (Cte Node), foldCtes step ctes = ctes.map (·.map (folded step))
  | [] => rfl
  | ⟨_, _, _⟩ :: ctes => by rw [foldCtes, foldCtes_eq_map ctes]; rfl

theorem foldWith_eq_map :
    ∀ w? : Option (With Node), foldWith step w? = w?.map (·.map (folded step))
  | none => rfl
  | some ⟨_, _⟩ => by rw [foldWith, foldCtes_eq_map]; rfl

theorem foldModifiers_eq_map :
    ∀ m : Modifiers Node, foldModifiers step m = m.map (folded step)
  | ⟨_, _, _, _, _⟩ => by
    simp only [foldModifiers, foldWith_eq_map, foldList_eq_map, foldOption_eq_map, Modifiers.map]

theorem foldSelect_eq_map : ∀ s : Select Node, foldSelect step s = s.map (folded step)
  | .single _ _ => by rw [foldSelect, foldCore_eq_map, foldModifiers_eq_map]; rfl
  | .compound _ left right _ => by
    rw [foldSelect, foldSelect_eq_map left, foldSelect_eq_map right, foldModifiers_eq_map]; rfl

theorem foldInsertSource_eq_map : ∀ s? : Option (InsertSource Node),
    foldInsertSource step s? = s?.map (·.map (folded step))
  | none => rfl
  | some (.values _) => by rw [foldInsertSource, foldTable_eq_map]; rfl
  | some (.select _) => by rw [foldInsertSource, foldSelect_eq_map]; rfl

theorem foldRows_eq_map : ∀ r : Rows Node, foldRows step r = r.map (folded step)
  | ⟨_, _, _, _, _, _⟩ => by
    simp only [foldRows, foldSource_eq_map, foldList_eq_map, foldOption_eq_map, Rows.map]

/-- Folding puts beside every subtree its result. -/
theorem foldForm_eq_map (form : Form Node) : foldForm step form = form.map (folded step) := by
  cases form with
  | list _ | and _ => simp only [foldForm, foldList_eq_map, Form.map]
  | call c => cases c; simp only [foldForm, foldList_eq_map, Form.map, Call.map]
  | cases c =>
    cases c; simp only [foldForm, foldOption_eq_map, foldArms_eq_map, Form.map, Case.map]
  | join _ => simp only [foldForm, foldJoin_eq_map, Form.map]
  | windowed _ _ => simp only [foldForm, foldWindowRef_eq_map, Form.map]
  | window _ => simp only [foldForm, foldWindow_eq_map, Form.map]
  | namedWindow w => cases w; simp only [foldForm, foldWindow_eq_map, Form.map, NamedWindow.map]
  | values _ => simp only [foldForm, foldTable_eq_map, Form.map]
  | select _ => simp only [foldForm, foldSelect_eq_map, Form.map]
  | insert s => cases s; simp only [foldForm, foldInsertSource_eq_map, Form.map, Insert.map]
  | update s =>
    cases s; simp only [foldForm, foldRows_eq_map, foldList_eq_map, Form.map, Update.map]
  | delete s => cases s; simp only [foldForm, foldRows_eq_map, Form.map, Delete.map]
  | sortKey k => cases k; rfl
  | cte c => cases c; rfl
  | _ => rfl

/-- **A fold at one construct**: the step, given the form with every subtree beside its result. -/
theorem fold_of (form : Form Node) : fold step (of form) = step (form.map (folded step)) := by
  rw [fold, foldForm_eq_map]

end Fold

end Node

end SqlTree
