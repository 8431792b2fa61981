import SqlTree.Sql.Part
import SqlTree.Sql.Spelling

/-!
# SqlTree — Sql — expressions

How operators, calls, cases, sort keys and windows are written in a dialect.
-/

namespace SqlTree

open Draft

def Table.draft (t : Table) : Draft :=
  match t.alias? with
  | some name => ident t.name ++ fixed " " ++ ident name
  | none => ident t.name

/-- The column after its table; the star of all columns is no name. -/
def Column.draft (c : Column) : Draft :=
  ident c.table.qualifier ++ fixed "." ++ if c.isStar then fixed "*" else ident c.name

/-- The slot of a value. -/
def Value.draft (v : Value) : Draft := slot ⟨none, some v⟩

/-! ### Operators -/

/-- A list in the parentheses of CUBE and its like. -/
def elementDraft (keyword : String) (p : Part) : Draft := fixed keyword ++ p.element.parens

def UnaryOperator.draft (d : Dialect) (op : UnaryOperator) (p : Part) : Draft :=
  match op with
  | not => fixed "NOT " ++ p.operand Strength.negation
  | grouping => p.enclosed
  | lateral => fixed "LATERAL " ++ p.operand Strength.atom
  | cube => elementDraft "CUBE" p
  | rollup => elementDraft "ROLLUP" p
  | groupingSet => elementDraft "GROUPING SETS" p
  | bin =>
    match d with
    | .mysql => fixed "BINARY " ++ p.operand Strength.prefixed
    | .generic | .postgresql | .sqlite => p.item
  | leading text => verbatim text ++ p.operand Strength.prefixed

/-- The sign of a binary operator with the blanks around it. -/
def BinaryOperator.sign (d : Dialect) : BinaryOperator → Draft
  | custom text => fixed " " ++ verbatim text ++ fixed " "
  | op => fixed (" " ++ d.operatorText op ++ " ")

/-- An operator between its operands.  The left operand may be as loose as the operator, except in a
comparison; the right one has to be tighter, unless it has the same associative operator. -/
def BinaryOperator.spread (d : Dialect) (op : BinaryOperator) (left right : Part) : Draft :=
  let leftLeast := if op.isComparison then op.strength + 1 else op.strength
  let rightLeast :=
    if op.isAssociative && right.node.operator? == some op then op.strength else op.strength + 1
  left.operand leftLeast ++ op.sign d ++ right.operand rightLeast

/-- The test for NULL. -/
def nullDraft (negated : Bool) (left : Part) : Draft :=
  left.operand Strength.compared ++ fixed (if negated then " IS NOT NULL" else " IS NULL")

/-- The comparison in which NULL is a value like any other, or its negation. -/
def distinctDraft (d : Dialect) (negated : Bool) (left right : Part) : Draft :=
  let left := left.operand Strength.compared
  let right := right.operand Strength.compared
  match d with
  | .mysql => onlyIf (!negated) (fixed "NOT ") ++ left ++ fixed " <=> " ++ right
  | .sqlite => left ++ fixed (if negated then " IS " else " IS NOT ") ++ right
  | .generic | .postgresql =>
    left ++ fixed (if negated then " IS NOT DISTINCT FROM " else " IS DISTINCT FROM ") ++ right

/-- Membership.  In the empty list it is a comparison of numbers that is false. -/
def membershipDraft (negated : Bool) (left right : Part) : Draft :=
  if right.isEmptyList then fixed (if negated then "1=1" else "1=0")
  else
    left.operand Strength.compared ++ fixed (if negated then " NOT IN " else " IN ") ++
      right.members

/-- A concatenation; one dialect has a function for it. -/
def concatDraft (d : Dialect) (left right : Part) : Draft :=
  match d with
  | .mysql => fixed "CONCAT" ++ (left.item ++ fixed ", " ++ right.item).parens
  | .generic | .postgresql | .sqlite => BinaryOperator.concat.spread d left right

/-- A binary operator and its operands.  An equality with NULL on the right is a test for NULL. -/
def BinaryOperator.draft (d : Dialect) (op : BinaryOperator) (left right : Part) : Draft :=
  match op with
  | equality => if right.node.isNull then nullDraft false left else op.spread d left right
  | notEqual => if right.node.isNull then nullDraft true left else op.spread d left right
  | isNotDistinctFrom =>
    if right.node.isNull then nullDraft false left else distinctDraft d true left right
  | isDistinctFrom =>
    if right.node.isNull then nullDraft true left else distinctDraft d false left right
  | isIn => membershipDraft false left right
  | isNotIn => membershipDraft true left right
  | between => left.operand Strength.compared ++ fixed " BETWEEN " ++ right.bounds
  | .concat => concatDraft d left right
  | named => left.item ++ fixed " AS " ++ right.item
  | assignment => left.target ++ fixed " = " ++ right.item
  | filter =>
    left.operand Strength.atom ++ fixed " FILTER " ++ (fixed "WHERE " ++ right.item).parens
  | greaterThan | greaterThanOrEqual | lessThan | lessThanOrEqual | contains | overlaps | or
  | addition | subtraction | multiplication | division | bitwiseAnd | bitwiseOr | bitwiseXor
  | shiftLeft | shiftRight | custom _ => op.spread d left right

/-- A conjunction; the empty one is a comparison of numbers that is true. -/
def conjunction (ps : List Part) : Draft :=
  match ps with
  | [] => fixed "1=1"
  | ps => sepBy " AND " (Part.conjuncts ps)

/-- The two bounds of BETWEEN. -/
def boundsDraft (low high : Part) : Draft :=
  low.operand Strength.compared ++ fixed " AND " ++ high.operand Strength.compared

def matchingDraft (d : Dialect) (left right : Part) (escape? : Option String)
    (caseSensitive negated : Bool) : Draft :=
  left.operand Strength.compared ++ fixed (" " ++ d.likeText caseSensitive negated ++ " ") ++
    right.operand Strength.compared ++
    match escape? with
    | some escape => fixed " ESCAPE " ++ stringLiteral escape
    | none => nothing

/-- A match of a regular expression; without an operator for it nothing is written. -/
def regexpDraft (d : Dialect) (left right : Part) (caseSensitive negated : Bool) : Draft :=
  match d.regexpText caseSensitive negated with
  | .ok operator =>
    left.operand Strength.compared ++ fixed (" " ++ operator ++ " ") ++
      right.operand Strength.compared
  | .error e => fail e

/-! ### Calls and cases -/

/-- A call under its explicit name, if it has one. -/
def Call.draft (c : Call Part) : Draft :=
  let call :=
    match c.kind with
    | .exists => fixed "EXISTS " ++ inOrder (c.arguments.map (Part.operand Strength.atom))
    | kind =>
      verbatim kind.text ++ (onlyIf c.distinct (fixed "DISTINCT ") ++ Part.list c.arguments).parens
  match c.alias? with
  | some ⟨name, false⟩ => call ++ fixed " AS " ++ verbatim name
  | some ⟨_, true⟩ | none => call

def extractDraft (d : Dialect) (expr : Part) (field : String) : Draft :=
  match d with
  | .sqlite => fail (.unsupported .extract d)
  | .generic | .postgresql | .mysql =>
    fixed "EXTRACT" ++
      (verbatim (String.ofList (Text.upper field.toList)) ++ fixed " FROM " ++ expr.item).parens

def castDraft (expr : Part) (typeName : String) : Draft :=
  fixed "CAST" ++ (expr.item ++ fixed " AS " ++ verbatim typeName).parens

/-- A keyword and an expression, if there is one. -/
def optional (keyword : String) (p? : Option Part) : Draft :=
  match p? with
  | some p => fixed keyword ++ p.item
  | none => nothing

def Case.draft (c : Case Part) : Draft :=
  let arms := c.arms.map fun (condition, result) =>
    fixed " WHEN " ++ condition.item ++ fixed " THEN " ++ result.item
  fixed "CASE" ++ optional " " c.subject? ++ inOrder arms ++ optional " ELSE " c.default? ++
    fixed " END"

/-! ### Sort keys and windows -/

/-- The test that puts the rows without a value at the right end, for a dialect that has no word for
where they go. -/
def nullsTest (d : Dialect) (k : SortKey Part) : Draft :=
  match d, k.nulls? with
  | .mysql, some .first => k.expr.operand Strength.compared ++ fixed " IS NOT NULL, "
  | .mysql, some .last => k.expr.operand Strength.compared ++ fixed " IS NULL, "
  | _, _ => nothing

/-- The words that put the rows without a value at the right end, in the other dialects. -/
def nullsWords (d : Dialect) (nulls? : Option NullsPlacement) : Draft :=
  match d, nulls? with
  | .mysql, _ | _, none => nothing
  | _, some .first => fixed " NULLS FIRST"
  | _, some .last => fixed " NULLS LAST"

def SortKey.draft (d : Dialect) (k : SortKey Part) : Draft :=
  nullsTest d k ++ k.expr.item ++ fixed (" " ++ k.direction.text) ++ nullsWords d k.nulls?

/-- The clauses of a window in parentheses, with blanks between those there are. -/
def Window.draft (w : Window Part) : Draft :=
  let partitions :=
    if w.partitions.isEmpty then [] else [fixed "PARTITION BY " ++ Part.list w.partitions]
  let orders := if w.orders.isEmpty then [] else [fixed "ORDER BY " ++ Part.list w.orders]
  let frame := w.frame?.toList.map fun f => fixed f.text
  (sepBy " " (partitions ++ orders ++ frame)).parens

def NamedWindow.draft (w : NamedWindow Part) : Draft :=
  ident w.name ++ fixed " AS " ++ w.window.draft

/-- An expression computed over a window. -/
def overDraft (expr : Part) (w : WindowRef Part) : Draft :=
  expr.operand Strength.atom ++ fixed " OVER " ++
    match w with
    | .empty => nothing.parens
    | .named window => ident window
    | .inline window => window.draft

end SqlTree
