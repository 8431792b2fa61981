/-!
# SqlTree — operators

The operators of expressions, their spelling, and how tightly they bind.  Binding strengths are
numbers; the greater binds tighter.  An operand that binds looser than its place allows is written
in parentheses.
-/

namespace SqlTree

/-! ### Binding strength -/

namespace Strength

/-- What stands by itself: a name, a value, a call, anything in parentheses. -/
abbrev atom : Nat := 100
abbrev prefixed : Nat := 90
abbrev multiplicative : Nat := 80
abbrev additive : Nat := 70

/-- Concatenation, bitwise operators and every operator that the caller spells. -/
abbrev otherInfix : Nat := 60
abbrev comparison : Nat := 50
abbrev negation : Nat := 40
abbrev conjunction : Nat := 30
abbrev disjunction : Nat := 20

/-- What an operand of a comparison needs: comparisons do not chain. -/
abbrev compared : Nat := comparison + 1

end Strength

/-! ### Operators of one operand -/

inductive UnaryOperator where
  | not
  /-- Parentheses. -/
  | grouping
  | lateral
  | cube
  | rollup
  | groupingSet
  /-- Comparison byte by byte, which only one dialect spells. -/
  | bin
  /-- An operator that the caller spells. -/
  | leading (text : String)
  deriving DecidableEq, Repr

/-- The operator's own name, or the spelling that the caller gave. -/
def UnaryOperator.label : UnaryOperator → String
  | not => "Not"
  | grouping => "Grouping"
  | lateral => "Lateral"
  | cube => "Cube"
  | rollup => "Rollup"
  | groupingSet => "GroupingSet"
  | bin => "Bin"
  | leading text => text

/-- Parentheses, the grouping elements and LATERAL bind as tightly as an atom. -/
def UnaryOperator.strength : UnaryOperator → Nat
  | not => Strength.negation
  | bin | leading _ => Strength.prefixed
  | grouping | lateral | cube | rollup | groupingSet => Strength.atom

/-! ### Operators of two operands -/

inductive BinaryOperator where
  | equality | notEqual
  | greaterThan | greaterThanOrEqual | lessThan | lessThanOrEqual
  | isDistinctFrom | isNotDistinctFrom
  | isIn | isNotIn
  /-- Its right side is the conjunction of the two bounds. -/
  | between
  | contains | overlaps
  | or
  | addition | subtraction | multiplication | division
  | concat
  | bitwiseAnd | bitwiseOr | bitwiseXor | shiftLeft | shiftRight
  /-- An operator that the caller spells. -/
  | custom (text : String)
  /-- An expression and its name. -/
  | named
  /-- A column and its new value. -/
  | assignment
  /-- An aggregate and the condition on its rows. -/
  | filter
  deriving DecidableEq, Repr

namespace BinaryOperator

/-- The spelling in standard SQL. -/
def text : BinaryOperator → String
  | equality => "="
  | notEqual => "!="
  | greaterThan => ">"
  | greaterThanOrEqual => ">="
  | lessThan => "<"
  | lessThanOrEqual => "<="
  | isDistinctFrom => "IS DISTINCT FROM"
  | isNotDistinctFrom => "IS NOT DISTINCT FROM"
  | isIn => "IN"
  | isNotIn => "NOT IN"
  | between => "BETWEEN"
  | contains => "@>"
  | overlaps => "&&"
  | or => "OR"
  | addition => "+"
  | subtraction => "-"
  | multiplication => "*"
  | division => "/"
  | concat => "||"
  | bitwiseAnd => "&"
  | bitwiseOr => "|"
  | bitwiseXor => "^"
  | shiftLeft => "<<"
  | shiftRight => ">>"
  | custom text => text
  | named => "AS"
  | assignment => "="
  | filter => "FILTER"

def strength : BinaryOperator → Nat
  | or => Strength.disjunction
  | equality | notEqual | greaterThan | greaterThanOrEqual | lessThan | lessThanOrEqual
  | isDistinctFrom | isNotDistinctFrom | isIn | isNotIn | between | contains | overlaps =>
    Strength.comparison
  | addition | subtraction => Strength.additive
  | multiplication | division => Strength.multiplicative
  | concat | bitwiseAnd | bitwiseOr | bitwiseXor | shiftLeft | shiftRight | custom _ =>
    Strength.otherInfix
  | named | assignment | filter => Strength.atom

/-- Whether the same operator at the root of the right operand may go without parentheses. -/
def isAssociative : BinaryOperator → Bool
  | or | addition | multiplication | concat | bitwiseAnd | bitwiseOr | bitwiseXor => true
  | equality | notEqual | greaterThan | greaterThanOrEqual | lessThan | lessThanOrEqual
  | isDistinctFrom | isNotDistinctFrom | isIn | isNotIn | between | contains | overlaps
  | subtraction | division | shiftLeft | shiftRight | custom _
  | named | assignment | filter => false

def isComparison (op : BinaryOperator) : Bool := op.strength == Strength.comparison

end BinaryOperator

end SqlTree
