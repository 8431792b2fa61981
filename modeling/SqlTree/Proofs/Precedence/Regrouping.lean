import SqlTree.Proofs.Precedence.ReadBack

/-!
# SqlTree — Proofs — lost operands

An operand that stands bare between two signs goes to the one that binds tighter.  Where that is not
the sign that it was written for, the expression is read as another one: the operand has changed
sides.

* `Node.Written.regrouped_right`, `Node.Written.regrouped_left`, `Node.Written.regrouped_before`:
  what is read when the operator on the right, on the left, or before an operand loses the part of
  it that stands next to the other sign.
-/

namespace SqlTree.Node.Written

open Draft Precedence

variable {E : Engine} {a b c : Node}

/-- An operand before a sign is as much as the tighter of two bounds. -/
theorem ends_min {P : Precedence} {m n pull : Nat} (hm : P.Ends m pull) (hn : P.Ends n pull) :
    P.Ends (min m n) pull := by
  obtain h | h := Nat.le_total m n
  · rwa [Nat.min_eq_left h]
  · rwa [Nat.min_eq_right h]

/-- A sign between two operands is written alike whether it is a statement or an item of one. -/
theorem read_statement {op : BinaryOperator} {p : Phrase}
    (h : ((binary op a b).draft E.dialect .item).Conveys E.table 1 1 p) :
    E.table.read ((binary op a b).draft E.dialect .statement).words = some p := by
  have statement : (binary op a b).draft E.dialect .statement =
      (binary op a b).draft E.dialect .item := by
    rw [binary, draft_of, Form.draft_item, Form.draft_statement]
    rfl
  rw [statement]
  exact h.reads.read Nat.one_pos Nat.one_pos

variable (sound : E.Sound)
include sound

/-- An operator that is no test, as it is written. -/
theorem plain_draft {op : BinaryOperator} (hop : op ∈ .or :: (E.predicates ++ E.computations))
    (plain : op.nullTest? = none) (apart : op.isAssociative = true → b.operator? ≠ some op) :
    (binary op a b).draft E.dialect .item =
      (a.part E.dialect).operand (leftLeast op.strength) ++
        fixed (" " ++ E.dialect.signText op ++ " ") ++
          (b.part E.dialect).operand (op.strength + 1) := by
  rw [binary_draft sound.foreign (sound.known op hop) apart, plain]

section
variable {op op' : BinaryOperator} (hop : op ∈ .or :: (E.predicates ++ E.computations))
  (hop' : op' ∈ .or :: (E.predicates ++ E.computations)) (plain : op.nullTest? = none)
  (plain' : op'.nullTest? = none) (ha : a.Written E) (hb : b.Written E) (hc : c.Written E)
include hop hop' plain plain' ha hb hc

/-- **The right operand of `op` is lost but for its own left operand**, if it stands bare and its
operator `op'` binds no tighter than `op`. -/
theorem regrouped_right (apart : op.isAssociative = true → op' ≠ op)
    (apart' : op'.isAssociative = true → c.operator? ≠ some op') (bare : op.strength < op'.strength)
    (pulls : E.table.Ends (E.rank (E.dialect.signText op)) (E.rank (E.dialect.signText op')))
    (left : E.losesLeft (E.dialect.signText op) a.grade = false)
    (middle : leftLeast op'.strength ≤ b.strength →
      E.rank (E.dialect.signText op) < E.opens b.strength ∧
        E.table.Ends (E.bears b.grade) (E.rank (E.dialect.signText op')))
    (right : E.losesRight (E.dialect.signText op') c.strength = false) :
    ((binary op a (binary op' b c)).draft E.dialect .item).Conveys E.table 1 1
      (.between (E.dialect.signText op')
        (.between (E.dialect.signText op) (a.phrase E.dialect) (b.phrase E.dialect))
        (c.phrase E.dialect)) := by
  obtain ⟨spelled, proper, known, positive, fits⟩ := sound.operators op hop
  obtain ⟨spelled', proper', known', positive', fits'⟩ := sound.operators op' hop'
  have draft : (binary op a (binary op' b c)).draft E.dialect .item =
      (a.part E.dialect).operand (leftLeast op.strength) ++
        fixed (" " ++ E.dialect.signText op ++ " ") ++
          (b.part E.dialect).operand (leftLeast op'.strength) ++
            fixed (" " ++ E.dialect.signText op' ++ " ") ++
              (c.part E.dialect).operand (op'.strength + 1) := by
    have inner : ((binary op' b c).part E.dialect).operand (op.strength + 1) =
        (binary op' b c).draft E.dialect .item := if_neg (Nat.not_lt.mpr bare)
    have different : op.isAssociative = true → (binary op' b c).operator? ≠ some op :=
      fun h heq => apart h (Option.some.inj heq)
    rw [plain_draft sound hop plain different, inner, plain_draft sound hop' plain' apart']
    simp only [append_assoc]
  obtain ⟨m, ends, first⟩ := ha.leftOperand sound _ (l := 1) fun strong =>
    (fits _ ha.grade).1 strong left
  obtain ⟨m', ends', second⟩ := hb.leftOperand sound _
    (l := E.rank (E.dialect.signText op) + 1) middle
  obtain ⟨k, hk, third⟩ := hc.rightOperand sound (r := 1) fun strong =>
    (fits' _ hc.grade).2 strong right
  have taken := Conveys.between spelled known first ends second (Nat.lt_succ_self _)
  have conveys := Conveys.between spelled' known' taken (ends_min pulls ends') third hk
  rw [Phrase.join, if_neg proper', Phrase.join, if_neg proper] at conveys
  rw [draft]
  refine conveys.mono ?_ ?_ <;> omega

/-- **The left operand of `op'` is lost but for its own right operand**, if it stands bare and its
operator `op` binds less tight than `op'`. -/
theorem regrouped_left (apart : op.isAssociative = true → b.operator? ≠ some op)
    (apart' : op'.isAssociative = true → c.operator? ≠ some op')
    (bare : leftLeast op'.strength ≤ op.strength)
    (pulls : E.rank (E.dialect.signText op) < E.rank (E.dialect.signText op'))
    (left : E.losesLeft (E.dialect.signText op) a.grade = false)
    (middle : op.strength < b.strength →
      E.rank (E.dialect.signText op) < E.opens b.strength ∧
        E.table.Ends (E.bears b.grade) (E.rank (E.dialect.signText op')))
    (right : E.losesRight (E.dialect.signText op') c.strength = false) :
    ((binary op' (binary op a b) c).draft E.dialect .item).Conveys E.table 1 1
      (.between (E.dialect.signText op) (a.phrase E.dialect)
        (.between (E.dialect.signText op') (b.phrase E.dialect) (c.phrase E.dialect))) := by
  obtain ⟨spelled, proper, known, positive, fits⟩ := sound.operators op hop
  obtain ⟨spelled', proper', known', positive', fits'⟩ := sound.operators op' hop'
  have draft : (binary op' (binary op a b) c).draft E.dialect .item =
      (a.part E.dialect).operand (leftLeast op.strength) ++
        fixed (" " ++ E.dialect.signText op ++ " ") ++
          ((b.part E.dialect).operand (op.strength + 1) ++
            fixed (" " ++ E.dialect.signText op' ++ " ") ++
              (c.part E.dialect).operand (op'.strength + 1)) := by
    have inner : ((binary op a b).part E.dialect).operand (leftLeast op'.strength) =
        (binary op a b).draft E.dialect .item := if_neg (Nat.not_lt.mpr bare)
    rw [plain_draft sound hop' plain' apart', inner, plain_draft sound hop plain apart]
    simp only [append_assoc]
  obtain ⟨m, ends, first⟩ := ha.leftOperand sound _ (l := 1) fun strong =>
    (fits _ ha.grade).1 strong left
  obtain ⟨m', ends', second⟩ := hb.leftOperand sound _
    (l := E.rank (E.dialect.signText op) + 1) middle
  obtain ⟨k, hk, third⟩ := hc.rightOperand sound (r := 1) fun strong =>
    (fits' _ hc.grade).2 strong right
  have taken := Conveys.between spelled' known' second ends' third hk
  have fits : E.rank (E.dialect.signText op) < min (E.rank (E.dialect.signText op) + 1)
      (E.rank (E.dialect.signText op')) := by omega
  have conveys := Conveys.between spelled known first ends taken fits
  rw [Phrase.join, if_neg proper, Phrase.join, if_neg proper'] at conveys
  rw [draft]
  refine conveys.mono ?_ ?_ <;> omega

end

/-- **A bitwise negation on the left of `op` takes all of it for its operand**, if `op` binds
tighter. -/
theorem regrouped_before {op : BinaryOperator}
    (hop : op ∈ .or :: (E.predicates ++ E.computations)) (plain : op.nullTest? = none)
    (ha : a.Written E) (hb : b.Written E)
    (apart : op.isAssociative = true → b.operator? ≠ some op)
    (bare : leftLeast op.strength ≤ Strength.prefixed)
    (middle : ∀ rank ∈ E.table.before? "~", rank < E.rank (E.dialect.signText op) ∧
      (Strength.prefixed ≤ a.strength → rank < E.opens a.strength ∧
        E.table.Ends (E.bears a.grade) (E.rank (E.dialect.signText op))))
    (right : E.losesRight (E.dialect.signText op) b.strength = false) :
    ((binary op a.bitwiseNot b).draft E.dialect .item).Conveys E.table 1 1
      (.before "~"
        (.between (E.dialect.signText op) (a.phrase E.dialect) (b.phrase E.dialect))) := by
  obtain ⟨spelled, proper, known, positive, fits⟩ := sound.operators op hop
  obtain ⟨before_proper, n, hn, -, -⟩ := sound.bitwiseNot
  obtain ⟨looser, middle⟩ := middle n hn
  have word : Lexicon.IsFree [] "~" := ⟨rfl, by decide, rfl⟩
  have draft : (binary op a.bitwiseNot b).draft E.dialect .item =
      verbatim "~" ++ ((a.part E.dialect).operand Strength.prefixed ++
        fixed (" " ++ E.dialect.signText op ++ " ") ++
          (b.part E.dialect).operand (op.strength + 1)) := by
    have item : a.bitwiseNot.draft E.dialect .item =
        verbatim "~" ++ (a.part E.dialect).operand Strength.prefixed := by
      rw [Node.bitwiseNot, unary, draft_item]
      rfl
    have inner : (a.bitwiseNot.part E.dialect).operand (leftLeast op.strength) =
        verbatim "~" ++ (a.part E.dialect).operand Strength.prefixed :=
      (if_neg (Nat.not_lt.mpr bare)).trans item
    rw [plain_draft sound hop plain apart, inner]
    simp only [append_assoc]
  obtain ⟨m, ends, first⟩ := ha.leftOperand sound _ (l := n + 1) middle
  obtain ⟨k, hk, second⟩ := hb.rightOperand sound (r := 1) fun strong =>
    (fits _ hb.grade).2 strong right
  have taken := Conveys.between spelled known first ends second hk
  have fits : n < min (n + 1) (E.rank (E.dialect.signText op)) := by omega
  have reads := Reads.before (l := 1) hn before_proper taken.reads fits
  rw [Phrase.join, if_neg proper] at reads
  have positive : 1 ≤ n := by
    obtain ⟨i, hi⟩ : ∃ i, n = i + 1 := by
      obtain ⟨i, -, rfl⟩ := Option.map_eq_some_iff.mp hn
      exact ⟨i, rfl⟩
    omega
  rw [draft]
  refine .of_spells ((Spells.verbatim word).append taken.spells) (reads.mono (Nat.le_refl _) ?_)
  omega

end SqlTree.Node.Written
