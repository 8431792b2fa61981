import SqlTree.Proofs.Precedence.Regrouping

/-!
# SqlTree — Proofs — the engines of two dialects

PostgreSQL has one level for all operators but arithmetic and comparisons, so that a concatenation
is lost on the right of a containment or of a regular expression, and a bitwise negation on the left
of arithmetic.  SQLite has concatenation above multiplication, so that a product is lost beside it.
Everything else that the operator methods build is read back.

* `Node.Formula.read_postgresql`, `Node.Formula.read_sqlite`: formulas are read back.
* `Engine.read_contains_concat`, `Engine.read_bitwiseNot_product`, `Engine.read_product_concat`,
  `Engine.read_concat_product`: what is read where an operand is lost.
-/

namespace SqlTree

open BinaryOperator Draft Precedence

namespace Engine

/-- The rank that is given for a strength, or else the tightest. -/
def ranks (tightest : Nat) (rows : List (Nat × Nat)) (strength : Nat) : Nat :=
  (rows.lookup strength).getD tightest

/-! ### PostgreSQL -/

def postgresql : Engine where
  dialect := .postgresql
  table :=
    [{ between := ["OR"] },
      { between := ["AND"] },
      { before := ["NOT"] },
      { between := ["IS DISTINCT FROM", "IS NOT DISTINCT FROM"],
        behind := ["IS NULL", "IS NOT NULL"], chains := false },
      { between := ["=", "!=", "<", ">", "<=", ">="], chains := false },
      { between := ["LIKE", "NOT LIKE", "ILIKE", "NOT ILIKE"], chains := false },
      { between := ["ESCAPE"], chains := false },
      { between := ["||", "&", "|", "#", "<<", ">>", "@>", "&&", "~", "~*", "!~", "!~*"],
        before := ["~"] },
      { between := ["+", "-"] },
      { between := ["*", "/"] },
      { between := ["."] }]
  predicates := [equality, notEqual, greaterThan, greaterThanOrEqual, lessThan, lessThanOrEqual,
    isDistinctFrom, isNotDistinctFrom, .contains, overlaps, .concat]
  computations := [addition, subtraction, multiplication, division, bitwiseAnd, bitwiseOr,
    bitwiseXor, shiftLeft, shiftRight]
  opens := ranks 11 [(Strength.conjunction, 2), (Strength.comparison, 4),
    (Strength.otherInfix, 8), (Strength.multiplicative, 10)]
  closes := ranks 11 [(Strength.conjunction, 2), (Strength.negation, 3), (Strength.comparison, 4),
    (Strength.otherInfix, 8), (Strength.multiplicative, 10), (Strength.prefixed, 8)]
  -- arithmetic pulls the operand out of a bitwise negation, also where it ends a product
  losesLeft sign g := ["+", "-", "*", "/"].contains sign &&
    (g.1 == Strength.prefixed || g == (Strength.multiplicative, true))
  losesRight sign strength := ["@>", "&&", "~", "~*", "!~", "!~*"].contains sign &&
    strength == Strength.otherInfix

theorem postgresql_sound : postgresql.Sound where
  foreign := by decide
  positive := by decide
  column := by decide
  known := by decide
  operators := by decide
  predicates := by decide
  bare := by decide
  or := by decide
  matching := by decide
  regexp caseSensitive negated := ⟨by cases caseSensitive <;> cases negated <;> rfl,
    by revert caseSensitive negated; decide⟩
  escape := by decide
  null := by decide
  not := by decide
  bitwiseNot := by decide
  and := by decide

/-! ### SQLite -/

def sqlite : Engine where
  dialect := .sqlite
  table :=
    [{ between := ["OR"] },
      { between := ["AND"] },
      { before := ["NOT"] },
      { between := ["=", "!=", "IS", "IS NOT", "LIKE", "NOT LIKE", "REGEXP", "NOT REGEXP"],
        behind := ["IS NULL", "IS NOT NULL"] },
      { between := ["<", ">", "<=", ">="] },
      { between := ["ESCAPE"] },
      { between := ["&", "|", "<<", ">>"] },
      { between := ["+", "-"] },
      { between := ["*", "/"] },
      { between := ["||"] },
      { before := ["~"] },
      { between := ["."] }]
  predicates := [equality, notEqual, greaterThan, greaterThanOrEqual, lessThan, lessThanOrEqual,
    isDistinctFrom, isNotDistinctFrom, .concat]
  computations := [addition, subtraction, multiplication, division, bitwiseAnd, bitwiseOr,
    shiftLeft, shiftRight]
  opens := ranks 12 [(Strength.conjunction, 2), (Strength.comparison, 4),
    (Strength.otherInfix, 10), (Strength.multiplicative, 9)]
  closes := ranks 12 [(Strength.conjunction, 2), (Strength.negation, 3), (Strength.comparison, 4),
    (Strength.otherInfix, 10), (Strength.multiplicative, 9), (Strength.prefixed, 11)]
  losesLeft sign g := sign == "||" && g.1 == Strength.multiplicative
  losesRight sign strength := sign == "||" && strength == Strength.multiplicative

theorem sqlite_sound : sqlite.Sound where
  foreign := by decide
  positive := by decide
  column := by decide
  known := by decide
  operators := by decide
  predicates := by decide
  bare := by decide
  or := by decide
  matching := by decide
  regexp caseSensitive negated := ⟨by cases caseSensitive <;> cases negated <;> rfl,
    by revert caseSensitive negated; decide⟩
  escape := by decide
  null := by decide
  not := by decide
  bitwiseNot := by decide
  and := by decide

end Engine

/-! ### Formulas are read back -/

namespace Node.Formula

variable {e : Node}

/-- **PostgreSQL reads every formula back**, as long as no operand is lost. -/
theorem read_postgresql (h : e.Formula .postgresql) :
    (e.draft .postgresql .statement).IsWhole ∧
      Engine.postgresql.table.read (e.draft .postgresql .statement).words =
        some (e.phrase .postgresql) :=
  h.read_draft Engine.postgresql_sound

/-- A concatenation on the left of a containment is taken whole. -/
theorem read_postgresql_of_contains :
    let column (name : String) : Node := of (.column ⟨⟨"t", none⟩, name⟩)
    let e := (((column "a").compare .concat (.node (column "b"))).compare .contains
      (.node (column "c"))).and ((column "a").compare .equality (.value (.integer 1))).not
    e.Formula .postgresql ∧ (e.draft .postgresql .statement).IsWhole ∧
      Engine.postgresql.table.read (e.draft .postgresql .statement).words =
        some (e.phrase .postgresql) := by
  intro column e
  have contains : Node.Formula .postgresql (((column "a").compare .concat
      (.node (column "b"))).compare .contains (.node (column "c"))) :=
    .compare (by decide) (.compare (by decide) (.column _) (.column _) (by decide) (by decide))
      (.column _) (by decide) (by decide)
  have equal : Node.Formula .postgresql ((column "a").compare .equality (.value (.integer 1))) :=
    .compare (by decide) (.column _) (.casted _ _) (by decide) (by decide)
  have formula : e.Formula .postgresql := .and contains (.not equal)
  exact ⟨formula, formula.read_postgresql⟩

/-- **SQLite reads every formula back**, as long as no operand is lost. -/
theorem read_sqlite (h : e.Formula .sqlite) :
    (e.draft .sqlite .statement).IsWhole ∧
      Engine.sqlite.table.read (e.draft .sqlite .statement).words = some (e.phrase .sqlite) :=
  h.read_draft Engine.sqlite_sound

/-- A product beside a sum is taken whole, and the sum beside a concatenation stands in
parentheses. -/
theorem read_sqlite_of_sum :
    let column (name : String) : Node := of (.column ⟨⟨"t", none⟩, name⟩)
    let e := (((column "a").calculate .multiplication (.node (column "b"))).calculate .addition
      (.value (.integer 1))).compare .concat (.node (column "c"))
    e.Formula .sqlite ∧ (e.draft .sqlite .statement).IsWhole ∧
      Engine.sqlite.table.read (e.draft .sqlite .statement).words = some (e.phrase .sqlite) := by
  intro column e
  have product : Node.Formula .sqlite
      ((column "a").calculate .multiplication (.node (column "b"))) :=
    .calculate (by decide) (.column _) (.column _) (by decide) (by decide)
  have sum : Node.Formula .sqlite (((column "a").calculate .multiplication
      (.node (column "b"))).calculate .addition (.value (.integer 1))) :=
    .calculate (by decide) product (.quoted _) (by decide) (by decide)
  have formula : e.Formula .sqlite :=
    .compare (by decide) sum (.column _) (by decide) (by decide)
  exact ⟨formula, formula.read_sqlite⟩

end Node.Formula

namespace Engine
open Node (of)

/-! ### What is read where an operand is lost -/

section
variable {a b c : Node} {op : BinaryOperator}

/-- **A concatenation on the right of a containment** is lost but for its first operand: the other
one is appended to the answer. -/
theorem read_contains_concat (hop : op ∈ [BinaryOperator.contains, overlaps])
    (ha : a.Formula postgresql) (hb : b.Formula postgresql) (hc : c.Formula postgresql)
    (single : b.strength ≠ Strength.otherInfix) (apart : c.operator? ≠ some .concat) :
    postgresql.table.read
        ((a.compare op (.node (b.compare .concat (.node c)))).draft .postgresql .statement).words =
      some (.between "||"
        (.between (Dialect.postgresql.signText op) (a.phrase .postgresql) (b.phrase .postgresql))
        (c.phrase .postgresql)) := by
  have signs : ∀ op ∈ [BinaryOperator.contains, overlaps],
      op ∈ .or :: (postgresql.predicates ++ postgresql.computations) ∧ op.nullTest? = none ∧
        .concat ≠ op ∧ op.strength < Strength.otherInfix ∧
        postgresql.table.Ends (postgresql.rank (Dialect.postgresql.signText op))
          (postgresql.rank "||") ∧
        ∀ g ∈ grades, postgresql.losesLeft (Dialect.postgresql.signText op) g = false ∧
          (Strength.otherInfix ≤ g.1 → g.1 ≠ Strength.otherInfix →
            postgresql.rank (Dialect.postgresql.signText op) < postgresql.opens g.1 ∧
              postgresql.table.Ends (postgresql.bears g) (postgresql.rank "||")) := by decide
  obtain ⟨known, plain, other, bare, pulls, fits⟩ := signs op hop
  have wa := ha.written postgresql_sound
  have wb := hb.written postgresql_sound
  have conveys := Node.Written.regrouped_right postgresql_sound known (by decide) plain rfl wa wb
    (hc.written postgresql_sound) (fun _ => other) (fun _ => apart) bare pulls (fits _ wa.grade).1
    (fun strong => (fits _ wb.grade).2 strong single) rfl
  exact Node.Written.read_statement conveys

/-- Text appended to the right of a containment is appended to its answer. -/
theorem not_read_contains_concat :
    let column (name : String) : Node := of (.column ⟨⟨"t", none⟩, name⟩)
    let e := (column "a").compare .contains
      (.node ((column "b").compare .concat (.node (column "c"))))
    postgresql.table.read (e.draft .postgresql .statement).words ≠ some (e.phrase .postgresql) := by
  intro column e heq
  have sign : BinaryOperator.contains ∈ [.contains, overlaps] := by decide
  have read := read_contains_concat sign (.column ⟨⟨"t", none⟩, "a"⟩)
    (.column ⟨⟨"t", none⟩, "b"⟩) (.column ⟨⟨"t", none⟩, "c"⟩) (by decide) (by decide)
  have same : Phrase.between "||" _ _ = .between "@>" _ _ := Option.some.inj (read.symm.trans heq)
  have signs : "||" = "@>" := (Phrase.between.inj same).1
  exact absurd signs (by decide)

/-- **A bitwise negation on the left of a product** takes the whole product for its operand. -/
theorem read_bitwiseNot_product (hop : op ∈ [multiplication, division])
    (ha : a.Formula postgresql) (hb : b.Formula postgresql)
    (single : a.strength ≠ Strength.prefixed) (apart : b.operator? ≠ some op) :
    postgresql.table.read ((a.bitwiseNot.calculate op (.node b)).draft .postgresql .statement).words
      = some (.before "~" (.between (Dialect.postgresql.signText op) (a.phrase .postgresql)
        (b.phrase .postgresql))) := by
  have signs : ∀ op ∈ [multiplication, division],
      op ∈ .or :: (postgresql.predicates ++ postgresql.computations) ∧ op.nullTest? = none ∧
        op.isGrouped = false ∧ leftLeast op.strength ≤ Strength.prefixed ∧
        ∀ rank ∈ postgresql.table.before? "~",
          rank < postgresql.rank (Dialect.postgresql.signText op) ∧
          ∀ g ∈ grades, g.1 ≠ Strength.prefixed → Strength.prefixed ≤ g.1 →
            rank < postgresql.opens g.1 ∧ postgresql.table.Ends (postgresql.bears g)
              (postgresql.rank (Dialect.postgresql.signText op)) := by decide
  have kept : ∀ op ∈ [multiplication, division], ∀ g ∈ grades,
      postgresql.losesRight (Dialect.postgresql.signText op) g.1 = false := by decide
  obtain ⟨known, plain, bare, strong, fits⟩ := signs op hop
  have wa := ha.written postgresql_sound
  have wb := hb.written postgresql_sound
  have conveys := Node.Written.regrouped_before postgresql_sound known plain wa wb (fun _ => apart)
    strong (fun rank hrank => ⟨(fits rank hrank).1, (fits rank hrank).2 _ wa.grade single⟩)
    (kept op hop _ wb.grade)
  rw [Node.calculate_eq, bare]
  exact Node.Written.read_statement conveys

/-- **A product on the left of a concatenation** is lost but for its last operand. -/
theorem read_product_concat (hop : op ∈ [multiplication, division])
    (ha : a.Formula sqlite) (hb : b.Formula sqlite) (hc : c.Formula sqlite)
    (apart : b.operator? ≠ some op) (apart' : c.operator? ≠ some .concat)
    (looser : c.strength ≠ Strength.multiplicative) :
    sqlite.table.read
        (((a.calculate op (.node b)).compare .concat (.node c)).draft .sqlite .statement).words =
      some (.between (Dialect.sqlite.signText op) (a.phrase .sqlite)
        (.between "||" (b.phrase .sqlite) (c.phrase .sqlite))) := by
  have signs : ∀ op ∈ [multiplication, division],
      op ∈ .or :: (sqlite.predicates ++ sqlite.computations) ∧ op.nullTest? = none ∧
        op.isGrouped = false ∧ leftLeast Strength.otherInfix ≤ op.strength ∧
        sqlite.rank (Dialect.sqlite.signText op) < sqlite.rank "||" ∧
        ∀ g ∈ grades, sqlite.losesLeft (Dialect.sqlite.signText op) g = false ∧
          (op.strength < g.1 → sqlite.rank (Dialect.sqlite.signText op) < sqlite.opens g.1 ∧
            sqlite.table.Ends (sqlite.bears g) (sqlite.rank "||")) ∧
          (g.1 ≠ Strength.multiplicative → sqlite.losesRight "||" g.1 = false) := by decide
  obtain ⟨known, plain, bare, strong, pulls, fits⟩ := signs op hop
  have wa := ha.written sqlite_sound
  have wb := hb.written sqlite_sound
  have wc := hc.written sqlite_sound
  have concat : .concat ∈ .or :: (sqlite.predicates ++ sqlite.computations) := by decide
  have conveys := Node.Written.regrouped_left sqlite_sound known concat plain rfl wa wb wc
    (fun _ => apart) (fun _ => apart') strong pulls (fits _ wa.grade).1 (fits _ wb.grade).2.1
    ((fits _ wc.grade).2.2 looser)
  rw [Node.calculate_eq, bare]
  exact Node.Written.read_statement conveys

/-- Text appended to a product is appended to its last factor. -/
theorem not_read_product_concat :
    let column (name : String) : Node := of (.column ⟨⟨"t", none⟩, name⟩)
    let e := ((column "a").calculate .multiplication (.node (column "b"))).compare .concat
      (.node (column "c"))
    sqlite.table.read (e.draft .sqlite .statement).words ≠ some (e.phrase .sqlite) := by
  intro column e heq
  have sign : BinaryOperator.multiplication ∈ [multiplication, division] := by decide
  have read := read_product_concat sign (.column ⟨⟨"t", none⟩, "a"⟩)
    (.column ⟨⟨"t", none⟩, "b"⟩) (.column ⟨⟨"t", none⟩, "c"⟩) (by decide) (by decide) (by decide)
  have same : Phrase.between "*" _ _ = .between "||" _ _ := Option.some.inj (read.symm.trans heq)
  have signs : "*" = "||" := (Phrase.between.inj same).1
  exact absurd signs (by decide)

/-- **A product on the right of a concatenation** is lost but for its first operand. -/
theorem read_concat_product (hop : op ∈ [multiplication, division])
    (ha : a.Formula sqlite) (hb : b.Formula sqlite) (hc : c.Formula sqlite)
    (apart : c.operator? ≠ some op) (looser : a.strength ≠ Strength.multiplicative)
    (single : b.strength ≠ Strength.multiplicative) :
    sqlite.table.read
        ((a.compare .concat (.node (b.calculate op (.node c)))).draft .sqlite .statement).words =
      some (.between (Dialect.sqlite.signText op)
        (.between "||" (a.phrase .sqlite) (b.phrase .sqlite)) (c.phrase .sqlite)) := by
  have signs : ∀ op ∈ [multiplication, division],
      op ∈ .or :: (sqlite.predicates ++ sqlite.computations) ∧ op.nullTest? = none ∧
        op.isGrouped = false ∧ op ≠ .concat ∧ Strength.otherInfix < op.strength ∧
        sqlite.table.Ends (sqlite.rank "||") (sqlite.rank (Dialect.sqlite.signText op)) ∧
        ∀ g ∈ grades, (g.1 ≠ Strength.multiplicative → sqlite.losesLeft "||" g = false) ∧
          (leftLeast op.strength ≤ g.1 → g.1 ≠ Strength.multiplicative →
            sqlite.rank "||" < sqlite.opens g.1 ∧
              sqlite.table.Ends (sqlite.bears g) (sqlite.rank (Dialect.sqlite.signText op))) ∧
          sqlite.losesRight (Dialect.sqlite.signText op) g.1 = false := by decide
  obtain ⟨known, plain, bare, other, strong, pulls, fits⟩ := signs op hop
  have wa := ha.written sqlite_sound
  have wb := hb.written sqlite_sound
  have wc := hc.written sqlite_sound
  have concat : .concat ∈ .or :: (sqlite.predicates ++ sqlite.computations) := by decide
  have conveys := Node.Written.regrouped_right sqlite_sound concat known rfl plain wa wb wc
    (fun _ => other) (fun _ => apart) strong pulls ((fits _ wa.grade).1 looser)
    (fun hs => (fits _ wb.grade).2.1 hs single) (fits _ wc.grade).2.2
  rw [Node.calculate_eq, bare]
  exact Node.Written.read_statement conveys

end

end Engine

end SqlTree
