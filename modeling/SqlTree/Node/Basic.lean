import SqlTree.Node.Fold

/-!
# SqlTree — Node — what a tree is

Questions about one tree that are answered at its root, or along one path from it.
-/

namespace SqlTree

namespace Node

def kind (n : Node) : String := n.form.kind

def children (n : Node) : List Node := n.form.children

/-- How tightly the tree binds as an operand; a conjunction of one item binds as that item. -/
def strength : Node → Nat
  | of (.binary op _ _) => op.strength
  | of (.unary op _) => op.strength
  | of (.and []) => Strength.atom
  | of (.and [only]) => only.strength
  | of (.and _) => Strength.conjunction
  | of (.matching ..) | of (.regexp ..) => Strength.comparison
  | of _ => Strength.atom

/-- The number of values that stand on the left of IN: parentheses do not count, a list has as many
as it has items, and anything else is one. -/
def arity : Node → Nat
  | of (.unary .grouping e) => e.arity
  | of (.list items) => items.length
  | of _ => 1

/-- The value NULL, whether or not it belongs to a column. -/
def isNull : Node → Bool
  | of (.quoted v) | of (.casted v _) => v.isNull
  | of _ => false

def isGrouping : Node → Bool
  | of (.unary .grouping _) => true
  | of _ => false

def isSelect : Node → Bool
  | of (.select _) => true
  | of _ => false

/-- A binary operator at the root. -/
def operator? : Node → Option BinaryOperator
  | of (.binary op _ _) => some op
  | of _ => none

end Node

/-- How many columns a select has, if that can be told: a star has any number, and so has an empty
list of projections. -/
def Select.arity? (s : Select Node) : Option Nat :=
  let projections := s.firstCore.projections
  let isStar : Node → Bool
    | .of .star => true
    | .of (.column c) => c.isStar
    | .of _ => false
  if projections.isEmpty || projections.any isStar then none else some projections.length

end SqlTree
