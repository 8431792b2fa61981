import SqlTree.Proofs.Meaning.Truth

/-!
# SqlTree — Proofs — complementary predicates

Predicates come in pairs that are built apart: a range and what lies outside of it, a predicate and
its opposite, one for any and one for all of a list.  On every row the one of a pair has the opposite
truth of the other, and is unknown where the other is.

* `Node.verdict_range`: a range of any shape is the conjunction of its two ends, and what is built
  for its outside is the negation of that.
* `Node.verdict_quantified`: a predicate for any or for all of a list is the disjunction or the
  conjunction over the list, and the opposite of a predicate holds for all exactly as far as the
  predicate does not hold for any.
-/

namespace SqlTree

universe u

section Complements
variable {D : Type u} [LinearOrder D] (ρ : Row D)

/-! ### Opposites -/

namespace Row
variable (left right : Node)

theorem compare_ne : ρ.compare (· ≠ ·) left right = (ρ.compare (· = ·) left right).not :=
  relate_of_iff_not (fun _ _ => Iff.rfl) _ _

theorem compare_le : ρ.compare (· ≤ ·) left right = (ρ.compare (· > ·) left right).not :=
  relate_of_iff_not (fun _ _ => not_lt.symm) _ _

theorem compare_lt : ρ.compare (· < ·) left right = (ρ.compare (· ≥ ·) left right).not :=
  relate_of_iff_not (fun _ _ => not_le.symm) _ _

end Row

namespace Node
variable (left : Node)

/-- Also where the operand is the literal NULL, and both are tests for it. -/
theorem verdict_notEqual (x : Operand) :
    (left.compare .notEqual x).verdict ρ = ((left.compare .equality x).verdict ρ).not := by
  rw [verdict_compare ρ left (by decide), verdict_compare ρ left (by decide)]
  by_cases isNull : (x.against left).isNull = true
  · simp only [BinaryOperator.verdict, if_pos isNull]
  · simp only [BinaryOperator.verdict, if_neg isNull]
    exact ρ.compare_ne left _

theorem verdict_lessThanOrEqual (x : Operand) :
    (left.compare .lessThanOrEqual x).verdict ρ =
      ((left.compare .greaterThan x).verdict ρ).not := by
  rw [verdict_compare ρ left (by decide), verdict_compare ρ left (by decide)]
  exact ρ.compare_le left _

theorem verdict_lessThan (x : Operand) :
    (left.compare .lessThan x).verdict ρ =
      ((left.compare .greaterThanOrEqual x).verdict ρ).not := by
  rw [verdict_compare ρ left (by decide), verdict_compare ρ left (by decide)]
  exact ρ.compare_lt left _

/-- Also where the list is empty, and neither looks at the value. -/
theorem verdict_notMember (values : List Operand) :
    (left.isNotIn values).verdict ρ = ((left.isIn values).verdict ρ).not := by
  rw [verdict_isNotIn, verdict_isIn, Truth.not_any, List.map_map]
  exact congrArg Truth.all (List.map_congr_left fun x _ => ρ.compare_ne left (x.against left))

end Node

/-! ### Ranges -/

namespace RangeBound

/-- Whether the value lies above a lower end. -/
def above (x : Node) : RangeBound → Truth
  | included low => ρ.compare (· ≥ ·) x low.toNode
  | excluded low => ρ.compare (· > ·) x low.toNode
  | unbounded => .yes

/-- Whether the value lies below an upper end. -/
def below (x : Node) : RangeBound → Truth
  | included high => ρ.compare (· ≤ ·) x high.toNode
  | excluded high => ρ.compare (· < ·) x high.toNode
  | unbounded => .yes

end RangeBound

namespace Node
variable (x : Node)

/-- An operator that compares values, whatever column a literal is set against. -/
theorem verdict_order {op : BinaryOperator} (hop : op ≠ .or) {r : D → D → Prop} [DecidableRel r]
    (h : ∀ right, op.verdict ρ x right = ρ.compare r x right) (e : Operand) :
    (x.compare op e).verdict ρ = ρ.compare r x e.toNode := by
  rw [verdict_compare ρ x hop, h, Row.compare, Row.value_against, Row.compare]

variable (low high : RangeBound)

/-- An end without a predicate holds. -/
theorem verdict_fromBelow? :
    ((low.fromBelow? x).map (verdict ρ)).getD .yes = low.above ρ x := by
  cases low with
  | included low => exact verdict_order ρ x (by decide) (fun _ => rfl) low
  | excluded low => exact verdict_order ρ x (by decide) (fun _ => rfl) low
  | unbounded => rfl

theorem verdict_fromAbove? :
    ((high.fromAbove? x).map (verdict ρ)).getD .yes = high.below ρ x := by
  cases high with
  | included high => exact verdict_order ρ x (by decide) (fun _ => rfl) high
  | excluded high => exact verdict_order ρ x (by decide) (fun _ => rfl) high
  | unbounded => rfl

/-- Where an end has a predicate, its outside has the opposite one. -/
theorem verdict_outBelow? :
    ((low.outBelow? x).map (verdict ρ)).getD .no = (low.above ρ x).not := by
  rw [← verdict_fromBelow?]
  cases low with
  | included low => exact verdict_lessThan ρ x low
  | excluded low => exact verdict_lessThanOrEqual ρ x low
  | unbounded => rfl

theorem verdict_outAbove? :
    ((high.outAbove? x).map (verdict ρ)).getD .no = (high.below ρ x).not := by
  rw [← verdict_fromAbove?]
  cases high with
  | included high => exact Truth.eq_not_symm (verdict_lessThanOrEqual ρ x high)
  | excluded high => exact Truth.eq_not_symm (verdict_lessThan ρ x high)
  | unbounded => rfl

theorem verdict_between :
    (x.between low high).verdict ρ = (low.above ρ x).and (high.below ρ x) := by
  rw [← verdict_fromBelow?, ← verdict_fromAbove?]
  cases low with
  | included a =>
      cases high with
      | included b =>
          -- BETWEEN is the same two comparisons.
          show (binary .between x _).verdict ρ =
            ((x.compare .greaterThanOrEqual a).verdict ρ).and
              ((x.compare .lessThanOrEqual b).verdict ρ)
          rw [verdict_compare ρ x (by decide), verdict_compare ρ x (by decide)]
          exact verdict_binary ρ x _ (by decide)
      | excluded b => exact verdict_and ρ _ _
      | unbounded => exact (Truth.and_yes _).symm
  | excluded a =>
      cases high with
      | included b => exact verdict_and ρ _ _
      | excluded b => exact verdict_and ρ _ _
      | unbounded => exact (Truth.and_yes _).symm
  | unbounded =>
      cases high with
      | included b => rfl
      | excluded b => rfl
      | unbounded => exact verdict_always ρ x

theorem verdict_notBetween :
    (x.notBetween low high).verdict ρ = ((low.above ρ x).and (high.below ρ x)).not := by
  rw [Truth.not_and, ← verdict_outBelow?, ← verdict_outAbove?, notBetween]
  cases low.outBelow? x with
  | some below =>
      cases high.outAbove? x with
      | some above => exact verdict_or ρ below above
      | none => exact (Truth.or_no _).symm
  | none =>
      cases high.outAbove? x with
      | some above => rfl
      | none => exact verdict_never ρ x

/-- **Ranges.**  With ends that are included, excluded or missing, on a row with any values or none:
a range is the conjunction of its ends, and what is built for its outside is the negation. -/
theorem verdict_range :
    (x.between low high).verdict ρ = (low.above ρ x).and (high.below ρ x) ∧
      (x.notBetween low high).verdict ρ = ((x.between low high).verdict ρ).not := by
  rw [verdict_between]
  exact ⟨rfl, verdict_notBetween ρ x low high⟩

end Node

/-! ### Lists of operands -/

/-- The predicates that have an opposite, by what they are set against. -/
inductive Predication : Type → Type where
  /-- Equal, or its opposite. -/
  | equality (negated : Bool) : Predication Operand
  /-- Greater, or its opposite. -/
  | greater (negated : Bool) : Predication Operand
  /-- At least as great, or its opposite. -/
  | atLeast (negated : Bool) : Predication Operand
  | matching (escape? : Option String) (caseSensitive negated : Bool) : Predication Operand
  | membership (negated : Bool) : Predication (List Operand)

namespace Predication
variable {α : Type}

/-- The tree that is built for the predicate. -/
def node : Predication α → Node → α → Node
  | equality false => Node.compare .equality
  | equality true => Node.compare .notEqual
  | greater false => Node.compare .greaterThan
  | greater true => Node.compare .lessThanOrEqual
  | atLeast false => Node.compare .greaterThanOrEqual
  | atLeast true => Node.compare .lessThan
  | matching escape? caseSensitive negated => fun left x =>
    left.matching x escape? caseSensitive negated
  | membership false => Node.isIn
  | membership true => Node.isNotIn

def opposite : Predication α → Predication α
  | equality negated => equality !negated
  | greater negated => greater !negated
  | atLeast negated => atLeast !negated
  | matching escape? caseSensitive negated => matching escape? caseSensitive !negated
  | membership negated => membership !negated

/-- The opposite of a predicate on one operand. -/
theorem verdict_opposite (p : Predication α) (left : Node) (x : α) :
    (p.opposite.node left x).verdict ρ = ((p.node left x).verdict ρ).not := by
  cases p with
  | equality negated =>
      have h := left.verdict_notEqual ρ x
      cases negated with
      | false => exact h
      | true => exact Truth.eq_not_symm h
  | greater negated =>
      have h := left.verdict_lessThanOrEqual ρ x
      cases negated with
      | false => exact h
      | true => exact Truth.eq_not_symm h
  | atLeast negated =>
      have h := left.verdict_lessThan ρ x
      cases negated with
      | false => exact h
      | true => exact Truth.eq_not_symm h
  | matching escape? caseSensitive negated =>
      show (left.matching x escape? caseSensitive _).verdict ρ =
        ((left.matching x escape? caseSensitive _).verdict ρ).not
      rw [Node.verdict_matching, Node.verdict_matching]
      cases negated with
      | false => rfl
      | true => exact (Truth.not_not _).symm
  | membership negated =>
      have h := left.verdict_notMember ρ x
      cases negated with
      | false => exact h
      | true => exact Truth.eq_not_symm h

end Predication

namespace Node
variable {α : Type}

theorem verdict_foldl_or (p : Node) (ps : List Node) :
    (ps.foldl (binary .or) p).verdict ρ = (p.verdict ρ).or (.any (ps.map (verdict ρ))) := by
  induction ps generalizing p with
  | nil => exact (Truth.or_no _).symm
  | cons q ps ih =>
      rw [List.foldl_cons, ih, verdict_disjunction, List.map_cons, Truth.any_cons, Truth.or_assoc]

variable (predicate : Node → α → Node) (left : Node) (xs : List α)

theorem verdict_anyOf :
    (left.anyOf predicate xs).verdict ρ = .any (xs.map fun x => (predicate left x).verdict ρ) := by
  cases xs with
  | nil => exact verdict_never ρ left
  | cons x xs =>
      show (grouping _).verdict ρ = _
      rw [verdict_grouping, verdict_foldl_or, List.map_map]
      rfl

theorem verdict_allOf :
    (left.allOf predicate xs).verdict ρ = .all (xs.map fun x => (predicate left x).verdict ρ) := by
  cases xs with
  | nil => exact verdict_always ρ left
  | cons x xs =>
      show (grouping _).verdict ρ = _
      rw [verdict_grouping, verdict_conjunction, List.map_cons, List.map_cons, List.map_map]
      rfl

/-- **Lists of operands**, of any length, on a row with any values or none. -/
theorem verdict_quantified :
    (left.anyOf predicate xs).verdict ρ = .any (xs.map fun x => (predicate left x).verdict ρ) ∧
    (left.allOf predicate xs).verdict ρ = .all (xs.map fun x => (predicate left x).verdict ρ) ∧
    ∀ p : Predication α,
      (left.allOf p.opposite.node xs).verdict ρ = ((left.anyOf p.node xs).verdict ρ).not := by
  refine ⟨verdict_anyOf ρ predicate left xs, verdict_allOf ρ predicate left xs, ?_⟩
  intro p
  rw [verdict_allOf, verdict_anyOf, Truth.not_any, List.map_map]
  exact congrArg Truth.all (List.map_congr_left fun x _ => p.verdict_opposite ρ left x)

end Node

end Complements

end SqlTree
