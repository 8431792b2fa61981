import SqlTree.Expr.Operand

/-!
# SqlTree — Expr — predicates

Comparisons, pattern matches, membership and ranges, and their extension to lists of operands.  No
operand at all is what the empty disjunction or conjunction is: false for membership in nothing,
true for its negation.
-/

namespace SqlTree

namespace Node

/-- An operator between a tree and an operand set against it. -/
def compare (op : BinaryOperator) (left : Node) (right : Operand) : Node :=
  binary op left (right.against left)

/-! ### Patterns -/

/-- LIKE, or its negation.  After the escape character a wildcard in the pattern stands for
itself. -/
def matching (left : Node) (pattern : Operand) (escape? : Option String)
    (caseSensitive negated : Bool) : Node :=
  of (.matching left (pattern.against left) escape? caseSensitive negated)

/-- A match of a regular expression, or its negation. -/
def regexp (left : Node) (pattern : Operand) (caseSensitive negated : Bool) : Node :=
  of (.regexp left (pattern.against left) caseSensitive negated)

/-! ### Membership -/

/-- Membership in a list: the operator is `isIn` or `isNotIn`. -/
def membership (op : BinaryOperator) (left : Node) (values : List Operand) : Node :=
  binary op left (list (values.map (·.against left)))

def isIn (left : Node) (values : List Operand) : Node := membership .isIn left values

def isNotIn (left : Node) (values : List Operand) : Node := membership .isNotIn left values

/-- False whatever the row. -/
def never (left : Node) : Node := left.isIn []

/-- True whatever the row. -/
def always (left : Node) : Node := left.isNotIn []

/-- Membership in the rows of a select, which has to have as many columns as the left side has
values, where that can be told. -/
def selectMembership (op : BinaryOperator) (left : Node) (s : Select Node) : Except Error Node :=
  match s.arity? with
  | some found =>
    if found = left.arity then .ok (binary op left (of (.select s)))
    else .error (.columnMismatch left.arity found)
  | none => .ok (binary op left (of (.select s)))

/-! ### Lists of operands -/

variable {α : Type}

/-- The predicate holds for one of the list. -/
def anyOf (predicate : Node → α → Node) (left : Node) (xs : List α) : Node :=
  match xs.map (predicate left) with
  | [] => left.never
  | p :: ps => (ps.foldl (binary .or) p).grouping

/-- The predicate holds for all of the list. -/
def allOf (predicate : Node → α → Node) (left : Node) (xs : List α) : Node :=
  match xs.map (predicate left) with
  | [] => left.always
  | ps => (of (.and ps)).grouping

end Node

/-! ### Ranges -/

/-- One end of a range. -/
inductive RangeBound where
  | included (x : Operand)
  | excluded (x : Operand)
  | unbounded

namespace RangeBound

/-- What lies above a lower end, the end itself as it says. -/
def fromBelow? (left : Node) : RangeBound → Option Node
  | included x => some (left.compare .greaterThanOrEqual x)
  | excluded x => some (left.compare .greaterThan x)
  | unbounded => none

/-- What lies below an upper end, the end itself as it says. -/
def fromAbove? (left : Node) : RangeBound → Option Node
  | included x => some (left.compare .lessThanOrEqual x)
  | excluded x => some (left.compare .lessThan x)
  | unbounded => none

/-- What lies outside of a lower end. -/
def outBelow? (left : Node) : RangeBound → Option Node
  | included x => some (left.compare .lessThan x)
  | excluded x => some (left.compare .lessThanOrEqual x)
  | unbounded => none

/-- What lies outside of an upper end. -/
def outAbove? (left : Node) : RangeBound → Option Node
  | included x => some (left.compare .greaterThan x)
  | excluded x => some (left.compare .greaterThanOrEqual x)
  | unbounded => none

end RangeBound

namespace Node

/-- Membership in a range.  BETWEEN says it where both ends are included. -/
def between (left : Node) : RangeBound → RangeBound → Node
  | .included low, .included high =>
    binary .between left (of (.and [low.against left, high.against left]))
  | low, high =>
    match low.fromBelow? left, high.fromAbove? left with
    | some lower, some upper => lower.and upper
    | some only, none | none, some only => only
    | none, none => left.always

/-- Not in a range: below the one end or above the other. -/
def notBetween (left : Node) (low high : RangeBound) : Node :=
  match low.outBelow? left, high.outAbove? left with
  | some below, some above => below.or above
  | some only, none | none, some only => only
  | none, none => left.never

end Node

end SqlTree
