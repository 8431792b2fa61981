import SqlTree.Node.Basic

/-!
# SqlTree — Expr — operands

Small trees by name, and the right-hand sides of operators: a tree as it stands, or a value that
still has to be made one.  A value set against a column remembers that column.
-/

namespace SqlTree

namespace Node

def column (c : Column) : Node := of (.column c)

def sql (text : String) : Node := of (.sql text)

def quoted (v : Value) : Node := of (.quoted v)

def list (items : List Node) : Node := of (.list items)

def unary (op : UnaryOperator) (operand : Node) : Node := of (.unary op operand)

def binary (op : BinaryOperator) (left right : Node) : Node := of (.binary op left right)

/-- The tree in parentheses. -/
def grouping (n : Node) : Node := unary .grouping n

/-- Several values as one, as in the comparison of rows. -/
def tuple (items : List Node) : Node := (list items).grouping

/-- The groupings by the items, by each shorter selection of them, and by none. -/
def cube (items : List Node) : Node := unary .cube (list items)

/-- The groupings by the items, by each shorter beginning of them, and by none. -/
def rollup (items : List Node) : Node := unary .rollup (list items)

/-- The groupings by each of the items alone. -/
def groupingSet (items : List Node) : Node := unary .groupingSet (list items)

/-- A number of rows.  The largest integer stands for every number beyond it. -/
def rowLimit (n : Nat) : Node :=
  quoted (.integer (if n ≤ Int64.maxValue.toInt then Int64.ofNat n else Int64.maxValue))

/-! ### Boolean combinations -/

protected def and (left right : Node) : Node := of (.and [left, right])

/-- A disjunction is put in parentheses, so that it keeps its meaning in a later conjunction. -/
protected def or (left right : Node) : Node := (binary .or left right).grouping

protected def not (n : Node) : Node := unary .not n

end Node

/-! ### Operands -/

inductive Operand where
  | node (n : Node)
  | value (v : Value)

namespace Operand

/-- The operand without regard to what it is set against. -/
def toNode : Operand → Node
  | node n => n
  | value v => .quoted v

/-- The operand set against the tree on its left. -/
def against (left : Node) : Operand → Node
  | node n => n
  | value v =>
    match left with
    | .of (.column c) => .of (.casted v c)
    | .of _ => .quoted v

def isNull : Operand → Bool
  | node _ => false
  | value v => v.isNull

end Operand

end SqlTree
