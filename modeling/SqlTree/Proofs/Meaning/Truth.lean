import SqlTree.Expr.Predicate
import SqlTree.Proofs.Writing.Draft
import Mathlib.Order.Lattice

/-!
# SqlTree — Proofs — the truth of predicates

A predicate on a row is true, false or unknown: to compare anything with NULL is unknown.  A row
gives values in a linear order to expressions (`Row`), and from these every tree has a truth
(`Node.verdict`), read as it is written in standard SQL: an equality with the literal NULL is a test
for NULL, nothing is a member of the empty list, and parentheses change nothing.

* `Truth.not_any`: De Morgan's law for lists.
* `relate_of_iff_not`: a relation and its complement have opposite truths, also where a value is
  missing.
* `Node.verdict_nullTest`, `Node.verdict_emptyList`: an equality with NULL and membership in nothing
  are written as what they are taken for, a test and a comparison of two numbers.
-/

namespace SqlTree

universe u

/-! ### Three truth values -/

inductive Truth where
  | yes | no
  /-- Some value that it takes to tell is missing. -/
  | unknown
  deriving DecidableEq, Repr

namespace Truth

def ofBool (b : Bool) : Truth := if b then yes else no

protected def not : Truth → Truth
  | yes => no
  | no => yes
  | unknown => unknown

protected def and : Truth → Truth → Truth
  | yes, t => t
  | no, _ | unknown, no => no
  | unknown, yes | unknown, unknown => unknown

protected def or : Truth → Truth → Truth
  | no, t => t
  | yes, _ | unknown, yes => yes
  | unknown, no | unknown, unknown => unknown

/-- All of the list; true for the empty one. -/
def all (ts : List Truth) : Truth := ts.foldr Truth.and yes

/-- One of the list; false for the empty one. -/
def any (ts : List Truth) : Truth := ts.foldr Truth.or no

@[simp] theorem and_yes (t : Truth) : t.and yes = t := by cases t <;> rfl

@[simp] theorem or_no (t : Truth) : t.or no = t := by cases t <;> rfl

@[simp] theorem not_not (t : Truth) : t.not.not = t := by cases t <;> rfl

/-- Being opposite goes both ways. -/
theorem eq_not_symm {s t : Truth} (h : t = s.not) : s = t.not := by rw [h, not_not]

theorem or_assoc (s t v : Truth) : (s.or t).or v = s.or (t.or v) := by
  cases s <;> cases t <;> cases v <;> rfl

theorem not_and (s t : Truth) : (s.and t).not = s.not.or t.not := by cases s <;> cases t <;> rfl

theorem not_or (s t : Truth) : (s.or t).not = s.not.and t.not := by cases s <;> cases t <;> rfl

theorem not_ofBool (b : Bool) : (ofBool b).not = ofBool (!b) := by cases b <;> rfl

variable (t : Truth) (ts : List Truth)

@[simp] theorem all_nil : all [] = yes := rfl

@[simp] theorem all_cons : all (t :: ts) = t.and (all ts) := rfl

@[simp] theorem any_cons : any (t :: ts) = t.or (any ts) := rfl

/-- **De Morgan's law** for lists of any length. -/
theorem not_any : (any ts).not = all (ts.map Truth.not) := by
  induction ts with
  | nil => rfl
  | cons t ts ih => rw [List.map_cons, any_cons, all_cons, not_or, ih]

end Truth

/-! ### Values that may be missing -/

section Values
variable {D : Type u}

/-- A relation between two values: unknown if one is missing. -/
def relate (r : D → D → Prop) [DecidableRel r] : Option D → Option D → Truth
  | some x, some y => .ofBool (decide (r x y))
  | some _, none | none, _ => .unknown

theorem relate_of_iff_not {r s : D → D → Prop} [DecidableRel r] [DecidableRel s]
    (complement : ∀ x y, s x y ↔ ¬r x y) (x? y? : Option D) :
    relate s x? y? = (relate r x? y?).not := by
  obtain _ | x := x?
  · rfl
  obtain _ | y := y?
  · rfl
  have same : decide (s x y) = !decide (r x y) := by
    rw [← decide_not]
    exact decide_eq_decide.mpr (complement x y)
  rw [relate, relate, Truth.not_ofBool, same]

end Values

/-! ### Rows -/

/-- What expressions come to on one row, as far as it does not follow from their parts. -/
structure Row (D : Type u) where
  /-- What a literal other than NULL stands for. -/
  literal : Value → D
  /-- The value of every other expression, unless it is NULL. -/
  other : Node → Option D
  /-- Whether a text matches a pattern, with the escape character and the regard for case. -/
  like : Option String → Bool → D → D → Bool
  /-- The truth of the predicates that are not interpreted. -/
  holds : Node → Truth

namespace Row
variable {D : Type u} (ρ : Row D)

/-- The value of an expression, unless it is NULL.  The column that a literal was set against plays
no part in it. -/
def value : Node → Option D
  | .of (.quoted v) | .of (.casted v _) => if v.isNull then none else some (ρ.literal v)
  | .of (.unary .grouping e) => value e
  | n => ρ.other n

theorem value_against (left : Node) (x : Operand) :
    ρ.value (x.against left) = ρ.value x.toNode := by
  cases x with
  | node n => rfl
  | value v =>
      obtain ⟨form⟩ := left
      cases form <;> rfl

/-- A relation between the values of two expressions. -/
def compare (r : D → D → Prop) [DecidableRel r] (left right : Node) : Truth :=
  relate r (ρ.value left) (ρ.value right)

/-- The test for NULL, which is never unknown. -/
def missing (n : Node) : Truth := .ofBool (ρ.value n).isNone

end Row

/-! ### The truth of a tree -/

section Trees
variable {D : Type u} [LinearOrder D] (ρ : Row D)

/-- The truth of an operator between two values, read as it is written. -/
def BinaryOperator.verdict (op : BinaryOperator) (left right : Node) : Truth :=
  match op, right with
  | equality, right => if right.isNull then ρ.missing left else ρ.compare (· = ·) left right
  | notEqual, right => if right.isNull then (ρ.missing left).not else ρ.compare (· ≠ ·) left right
  | greaterThan, right => ρ.compare (· > ·) left right
  | greaterThanOrEqual, right => ρ.compare (· ≥ ·) left right
  | lessThan, right => ρ.compare (· < ·) left right
  | lessThanOrEqual, right => ρ.compare (· ≤ ·) left right
  | isIn, .of (.list items) => .any (items.map (ρ.compare (· = ·) left))
  | isNotIn, .of (.list items) => .all (items.map (ρ.compare (· ≠ ·) left))
  | between, .of (.and [low, high]) =>
    (ρ.compare (· ≥ ·) left low).and (ρ.compare (· ≤ ·) left high)
  | op, right => ρ.holds (.binary op left right)

/-- The truth of a match, or of its negation. -/
def Row.matching (left right : Node) (escape? : Option String) (caseSensitive negated : Bool) :
    Truth :=
  let t := ρ.compare (fun x y => ρ.like escape? caseSensitive x y = true) left right
  if negated then t.not else t

def Form.verdict : Form (Node × Truth) → Truth
  | bool b => .ofBool b
  | unary .grouping e => e.2
  | unary .not e => e.2.not
  | and items => .all (items.map Prod.snd)
  | binary .or left right => left.2.or right.2
  | binary op left right => op.verdict ρ left.1 right.1
  | matching left right escape? sensitive negated =>
    ρ.matching left.1 right.1 escape? sensitive negated
  | form => ρ.holds (.of (form.map Prod.fst))

/-- The truth of a tree on a row. -/
def Node.verdict : Node → Truth := fold (Form.verdict ρ)

namespace Node
variable (left right e : Node)

@[simp] theorem verdict_grouping : e.grouping.verdict ρ = e.verdict ρ := by
  rw [grouping, unary, verdict, fold_of]
  rfl

@[simp] theorem verdict_conjunction (items : List Node) :
    (of (.and items)).verdict ρ = .all (items.map (verdict ρ)) := by
  rw [verdict, fold_of]
  show Truth.all ((items.map _).map Prod.snd) = _
  rw [List.map_map]
  rfl

@[simp] theorem verdict_disjunction :
    (binary .or left right).verdict ρ = (left.verdict ρ).or (right.verdict ρ) := by
  rw [binary, verdict, fold_of]
  rfl

@[simp] theorem verdict_and :
    (left.and right).verdict ρ = (left.verdict ρ).and (right.verdict ρ) := by
  simp [Node.and]

@[simp] theorem verdict_or :
    (left.or right).verdict ρ = (left.verdict ρ).or (right.verdict ρ) := by
  simp [Node.or]

theorem verdict_binary {op : BinaryOperator} (h : op ≠ .or) :
    (binary op left right).verdict ρ = op.verdict ρ left right := by
  rw [binary, verdict, fold_of]
  cases op with
  | or => exact absurd rfl h
  | _ => rfl

theorem verdict_compare {op : BinaryOperator} (h : op ≠ .or) (x : Operand) :
    (left.compare op x).verdict ρ = op.verdict ρ left (x.against left) :=
  verdict_binary ρ left _ h

@[simp] theorem verdict_matching (x : Operand) (escape? : Option String)
    (caseSensitive negated : Bool) :
    (left.matching x escape? caseSensitive negated).verdict ρ =
      ρ.matching left (x.against left) escape? caseSensitive negated := by
  rw [matching, verdict, fold_of]
  rfl

@[simp] theorem verdict_isIn (values : List Operand) :
    (left.isIn values).verdict ρ =
      .any (values.map fun x => ρ.compare (· = ·) left (x.against left)) := by
  rw [isIn, membership, verdict_binary ρ left _ (by decide)]
  show Truth.any ((values.map _).map _) = _
  rw [List.map_map]
  rfl

@[simp] theorem verdict_isNotIn (values : List Operand) :
    (left.isNotIn values).verdict ρ =
      .all (values.map fun x => ρ.compare (· ≠ ·) left (x.against left)) := by
  rw [isNotIn, membership, verdict_binary ρ left _ (by decide)]
  show Truth.all ((values.map _).map _) = _
  rw [List.map_map]
  rfl

/-- **An equality with NULL is written as the test that it is taken for**, and its negation as the
opposite test. -/
theorem verdict_nullTest (null : right.isNull = true) (negated : Bool) :
    let e := binary (if negated then .notEqual else .equality) left right
    let test := ρ.missing left
    e.draft .generic .item = (left.part .generic).operand Strength.compared ++
        Draft.fixed (if negated then " IS NOT NULL" else " IS NULL") ∧
      e.verdict ρ = if negated then test.not else test := by
  intro e test
  have draft : e.draft .generic .item =
      BinaryOperator.draft .generic (if negated then .notEqual else .equality)
        (left.part .generic) (right.part .generic) := draft_item .generic _
  rw [draft]
  cases negated with
  | false => exact ⟨if_pos null, (verdict_binary ρ left right (by decide)).trans (if_pos null)⟩
  | true => exact ⟨if_pos null, (verdict_binary ρ left right (by decide)).trans (if_pos null)⟩

/-- **Membership in nothing is written as a comparison that is false**, and its negation as one that
is true; so they are taken. -/
theorem verdict_emptyList (negated : Bool) :
    let e := binary (if negated then .isNotIn else .isIn) left (list [])
    e.draft .generic .item = Draft.fixed (if negated then "1=1" else "1=0") ∧
      e.verdict ρ = .ofBool (decide (1 = if negated then 1 else 0)) := by
  intro e
  cases negated with
  | false => exact ⟨draft_item .generic _, verdict_binary ρ left _ (by decide)⟩
  | true => exact ⟨draft_item .generic _, verdict_binary ρ left _ (by decide)⟩

@[simp] theorem verdict_never : left.never.verdict ρ = .no := verdict_isIn ρ left []

@[simp] theorem verdict_always : left.always.verdict ρ = .yes := verdict_isNotIn ρ left []

end Node

end Trees

end SqlTree
