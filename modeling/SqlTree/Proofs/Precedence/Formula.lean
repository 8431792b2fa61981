import SqlTree.Expr.Arithmetic
import SqlTree.Expr.Predicate
import SqlTree.Proofs.Grammar.Expression
import SqlTree.Proofs.Precedence.Reader
import SqlTree.Proofs.Tree.Parts

/-!
# SqlTree — Proofs — engines and formulas

Parentheses are written by one table of strengths for all dialects, and an engine reads by its own
table (`Engine`).  Where the two disagree an operand that stands bare is lost to the sign beside it;
an engine says which operands these are (`Engine.Keeps`).

* `Node.phrase`: the expression by the spelling of its operators, which is what a reader should
  come back with.
* `Node.Formula`: the expressions over columns and values that the operator methods build, as long
  as no operand is lost.
-/

namespace SqlTree

/-! ### Signs -/

/-- The sign between the operands of an operator. -/
def Dialect.signText (d : Dialect) (op : BinaryOperator) : String :=
  match d, op with
  | sqlite, .isDistinctFrom => "IS NOT"
  | sqlite, .isNotDistinctFrom => "IS"
  | _, _ => d.operatorText op

/-- The test for NULL, or for its absence. -/
def nullText (negated : Bool) : String := if negated then "IS NOT NULL" else "IS NULL"

/-- The sign that matches a regular expression, if there is one. -/
def Dialect.regexpSign (d : Dialect) (caseSensitive negated : Bool) : String :=
  match d.regexpText caseSensitive negated with
  | .ok sign => sign
  | .error _ => ""

/-! ### What should be read -/

/-- A construct by the spelling of its operator, given its operands in the same way. -/
def Form.phrase (d : Dialect) : Form (Node × Phrase) → Phrase
  | column c => .between "." (.name c.table.qualifier) (if c.isStar then .star else .name c.name)
  | quoted v | casted v _ => .slot ⟨none, some v⟩
  | unary .grouping e => e.2
  | unary .not e => .before "NOT" e.2
  | unary (.leading text) e => .before text e.2
  | and items => .all (items.flatMap (·.2.conjuncts))
  | binary op left right =>
    match op.nullTest?, right.1.isNull with
    | some negated, true => .behind (nullText negated) left.2
    | _, _ => .between (d.signText op) left.2 right.2
  | matching left right escape? caseSensitive negated =>
    .between (d.likeText caseSensitive negated) left.2
      (match escape? with
      | some escape => .between "ESCAPE" right.2 (.string escape)
      | none => right.2)
  | regexp left right caseSensitive negated =>
    .between (d.regexpSign caseSensitive negated) left.2 right.2
  | _ => .all []

namespace Node

/-- The expression by the spelling of its operators, without its parentheses and with its
conjunctions flat.  What is no formula has no meaning here. -/
def phrase (d : Dialect) : Node → Phrase := fold (Form.phrase d)

theorem phrase_of (d : Dialect) (form : Form Node) :
    (of form).phrase d = (form.map fun n => (n, n.phrase d)).phrase d :=
  fold_of (Form.phrase d) form

/-! ### Grades -/

/-- The last operand of the operator at the root begins with a sign: it is never in parentheses. -/
def trails : Node → Bool
  | of (.binary _ _ right) | of (.matching _ right ..) | of (.regexp _ right ..) =>
    right.strength == Strength.prefixed
  | _ => false

/-- What an operand is to the signs beside it: its strength, and whether it ends in an operand that
begins with a sign. -/
abbrev grade (n : Node) : Nat × Bool := (n.strength, n.trails)

end Node

/-- The grades of formulas. -/
def grades : List (Nat × Bool) :=
  [Strength.conjunction, Strength.comparison, Strength.otherInfix, Strength.multiplicative].flatMap
    (fun strength => [(strength, false), (strength, true)]) ++
  [(Strength.negation, false), (Strength.prefixed, false), (Strength.atom, false)]

/-! ### Engines -/

/-- How a dialect is read: the table, and for each strength of a bare operand the rank that it may
stand behind and the rank that it bears behind it. -/
structure Engine where
  dialect : Dialect
  table : Precedence
  /-- The operators that the methods for predicates build. -/
  predicates : List BinaryOperator
  /-- The operators that the methods for computations build. -/
  computations : List BinaryOperator
  opens : Nat → Nat
  closes : Nat → Nat
  /-- The sign does not take all of an operand of the grade on its left. -/
  losesLeft : String → Nat × Bool → Bool
  /-- The sign does not take all of an operand of the strength on its right. -/
  losesRight : String → Nat → Bool

namespace Engine

variable (E : Engine)

/-- The sign takes its operands as they stand. -/
def Keeps (sign : String) (left right : Node) : Prop :=
  E.losesLeft sign left.grade = false ∧ E.losesRight sign right.strength = false

instance (sign : String) (left right : Node) : Decidable (E.Keeps sign left right) :=
  inferInstanceAs (Decidable (E.losesLeft sign left.grade = false ∧
    E.losesRight sign right.strength = false))

/-- The rank of a sign between two operands. -/
def rank (sign : String) : Nat := (E.table.between? sign).getD 0

/-- The rank that an operand of the grade bears behind it: one that ends in an operand with a sign
before it bears no more than that operand. -/
def bears (g : Nat × Bool) : Nat :=
  if g.2 then min (E.closes g.1) (E.closes Strength.prefixed) else E.closes g.1

end Engine

/-- Whether the method for a computation puts it in parentheses. -/
def BinaryOperator.isGrouped : BinaryOperator → Bool
  | addition | subtraction | bitwiseAnd | bitwiseOr | bitwiseXor | shiftLeft | shiftRight => true
  | _ => false

theorem Node.calculate_eq (op : BinaryOperator) (left : Node) (right : Operand) :
    left.calculate op right =
      if op.isGrouped then (binary op left (right.against left)).grouping
      else binary op left (right.against left) := by
  cases op <;> rfl

/-- What the left operand of a sign of that strength needs. -/
def leftLeast (strength : Nat) : Nat :=
  if strength == Strength.comparison then strength + 1 else strength

/-! ### Formulas -/

namespace Node

/-- The expressions that the operator methods of an engine's dialect build from columns and values.
No associative operator and no sign before an operand stands directly on the right of itself, and
every sign keeps its operands. -/
inductive Formula (E : Engine) : Node → Prop
  | column (c : Column) : Formula E (of (.column c))
  | quoted (v : Value) : Formula E (of (.quoted v))
  | casted (v : Value) (c : Column) : Formula E (of (.casted v c))
  | grouping {e : Node} (he : Formula E e) : Formula E e.grouping
  | not {e : Node} (he : Formula E e) : Formula E e.not
  | bitwiseNot {e : Node} (he : Formula E e) (apart : ∀ x, e ≠ bitwiseNot x) :
      Formula E e.bitwiseNot
  | and {left right : Node} (hleft : Formula E left) (hright : Formula E right) :
      Formula E (left.and right)
  | or {left right : Node} (hleft : Formula E left) (hright : Formula E right)
      (apart : right.operator? ≠ some .or) : Formula E (left.or right)
  | compare {op : BinaryOperator} {left : Node} {right : Operand} (hop : op ∈ E.predicates)
      (hleft : Formula E left) (hright : Formula E (right.against left))
      (apart : op.isAssociative = true → (right.against left).operator? ≠ some op)
      (keeps : E.Keeps (E.dialect.signText op) left (right.against left)) :
      Formula E (left.compare op right)
  | calculate {op : BinaryOperator} {left : Node} {right : Operand} (hop : op ∈ E.computations)
      (hleft : Formula E left) (hright : Formula E (right.against left))
      (apart : op.isAssociative = true → (right.against left).operator? ≠ some op)
      (keeps : E.Keeps (E.dialect.signText op) left (right.against left)) :
      Formula E (left.calculate op right)
  | matching {left : Node} {pattern : Operand} (escape? : Option String)
      (caseSensitive negated : Bool) (hleft : Formula E left)
      (hright : Formula E (pattern.against left))
      (keeps : E.Keeps (E.dialect.likeText caseSensitive negated) left (pattern.against left)) :
      Formula E (left.matching pattern escape? caseSensitive negated)
  | regexp {left : Node} {pattern : Operand} (caseSensitive negated : Bool)
      (hleft : Formula E left) (hright : Formula E (pattern.against left))
      (keeps : E.Keeps (E.dialect.regexpSign caseSensitive negated) left (pattern.against left)) :
      Formula E (left.regexp pattern caseSensitive negated)

end Node

end SqlTree
