import SqlTree.Expr.Operand

/-!
# SqlTree — Expr — arithmetic

Operators that compute a value.  Those that bind loosely are put in parentheses, so that they keep
their meaning in a later product; products and quotients stay bare.
-/

namespace SqlTree.Node

/-- An operator that computes a value from a tree and an operand set against it. -/
def calculate (op : BinaryOperator) (left : Node) (right : Operand) : Node :=
  let result := binary op left (right.against left)
  match op with
  | .addition | .subtraction | .bitwiseAnd | .bitwiseOr | .bitwiseXor | .shiftLeft | .shiftRight =>
    result.grouping
  | _ => result

def bitwiseNot (n : Node) : Node := unary (.leading "~") n

end SqlTree.Node
