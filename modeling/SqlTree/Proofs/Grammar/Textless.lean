import SqlTree.Proofs.Grammar.Respelling

/-!
# SqlTree — Proofs — marks and conjunctions of nothing

The two constructs that are written as something else keep the strength of what they are.  A mark
for a comparison byte by byte binds as a sign before its operand, whatever it marks, and the
conjunction of nothing binds as an atom, although it is written as a comparison.  Where an operand
stands bare that its text does not allow, it falls apart.

* `Node.Marked.read_unmarked`: outside the dialect that spells them, marks are not there for a
  reader, unless one of them hides an operand that is too loose.
* `Node.Hollow.read_filled`: the conjunction of nothing is read as a comparison, unless an operand
  of an operator is one that should have been in parentheses.
-/

namespace SqlTree
open Draft

/-! ### Marks -/

/-- The construct without a mark. -/
def Form.unmarked : Form Node → Node
  | unary .bin e => e
  | form => .of form

namespace Node

/-- The expression with every mark for a comparison byte by byte replaced by what it marks. -/
def unmarked : Node → Node := rewrite Form.unmarked

/-- The expressions over columns and values in which marks may stand around anything.  Conjunctions
have two items or more, and no associative operator stands at the root of its own right operand, or
there within marks only. -/
inductive Marked : Node → Prop
  | column (c : Column) : Marked (of (.column c))
  | quoted {v : Value} (hv : v.isNull = false) : Marked (of (.quoted v))
  | casted {v : Value} (c : Column) (hv : v.isNull = false) : Marked (of (.casted v c))
  | bin {e : Node} (he : Marked e) : Marked (of (.unary .bin e))
  | not {e : Node} (he : Marked e) : Marked e.not
  | and {items : List Node} (several : 2 ≤ items.length) (hitems : ∀ e ∈ items, Marked e) :
      Marked (of (.and items))
  | operator {op : BinaryOperator} {left right : Node} (hop : op ∈ BinaryOperator.infixes)
      (hleft : Marked left) (hright : Marked right)
      (apart : op.isAssociative = true → right.unmarked.operator? ≠ some op) :
      Marked (binary op left right)
  | matching {left right : Node} (escape? : Option String) (caseSensitive negated : Bool)
      (hleft : Marked left) (hright : Marked right) :
      Marked (of (.matching left right escape? caseSensitive negated))

/-- A conjunction whose items are written as others. -/
theorem Respells.and_map {f : Node → Node} {items : List Node} (nonempty : items ≠ [])
    (h : ∀ e ∈ items, Respells e (f e))
    (bare : ∀ e ∈ items,
      Strength.conjunction ≤ e.strength → Strength.conjunction ≤ (f e).strength) :
    Respells (of (.and items)) (of (.and (items.map f))) := by
  let pairs : List (Node × Node) := items.map fun e => (e, f e)
  have first : pairs.map Prod.fst = items := by simp [pairs, Function.comp_def]
  have second : pairs.map Prod.snd = items.map f := by simp [pairs, Function.comp_def]
  have written : Respells (of (.and (pairs.map Prod.fst))) (of (.and (pairs.map Prod.snd))) :=
    .and (by simpa [pairs] using nonempty) (by simpa [pairs] using h) (by simpa [pairs] using bare)
  rwa [first, second] at written

theorem Marked.respells {e : Node} (h : e.Marked) (bare : e.BareAs unmarked) :
    Respells e e.unmarked := by
  induction h with
  | column c => exact .column c
  | quoted hv => exact .quoted hv
  | casted c hv => exact .casted c hv
  | @bin e _ ih =>
      rw [unmarked, rewrite_of]
      exact .bin (ih (bare.of_mem_parts (List.mem_singleton_self e)))
  | @not e _ ih =>
      rw [Node.not, unary, unmarked, rewrite_of]
      exact .not (ih (bare.of_mem_parts (List.mem_singleton_self e)))
        (bare.root _ (List.mem_singleton_self _))
  | @and items several hitems ih =>
      have replaced : (of (.and items)).unmarked = of (.and (items.map unmarked)) := rewrite_of _ _
      have nonempty : items ≠ [] := by
        rintro rfl
        exact absurd several (by decide)
      rw [replaced]
      exact .and_map nonempty (fun e he => ih e he (bare.item he).1) fun e he => (bare.item he).2
  | @operator op left right hop _ _ apart ihl ihr =>
      have replaced : (binary op left right).unmarked = binary op left.unmarked right.unmarked :=
        rewrite_of _ _
      obtain ⟨⟨hl, bareLeft⟩, hr, bareRight⟩ := bare.operands rfl rfl
      rw [replaced]
      exact .operator hop (ihl hl) (ihr hr) apart bareLeft bareRight
  | @matching left right escape? caseSensitive negated _ _ ihl ihr =>
      have replaced : (of (.matching left right escape? caseSensitive negated)).unmarked =
          of (.matching left.unmarked right.unmarked escape? caseSensitive negated) :=
        rewrite_of _ _
      obtain ⟨⟨hl, bareLeft⟩, hr, bareRight⟩ := bare.operands rfl rfl
      rw [replaced]
      exact .matching escape? caseSensitive negated (ihl hl) (ihr hr) bareLeft bareRight

/-- **Marks are not there for a reader.**  Outside the dialect that spells them, if no mark hides
an operand that is too loose for its place, the tokens of the expression are read as what is left
of it without its marks. -/
theorem Marked.read_unmarked {d : Dialect} (foreign : d ≠ .mysql) {e : Node} (h : e.Marked)
    (bare : e.BareAs unmarked) (isFunction : String → Bool) :
    (e.draft d .statement).IsWhole ∧
      (Grammar.generic isFunction).read (d.scan (e.draft d .statement).lexemes) =
        some e.unmarked.erased :=
  (h.respells bare).read foreign isFunction

/-- A marked product within a sum, compared with a marked column. -/
theorem Marked.read_unmarked_of_product :
    let column (name : String) : Node := of (.column ⟨⟨"t", none⟩, name⟩)
    let product := of (.unary .bin (binary .multiplication (column "b") (column "c")))
    let e := binary .equality (binary .addition (column "a") product)
      (of (.unary .bin (column "d")))
    Dialect.sqlite ≠ .mysql ∧ e.Marked ∧ e.BareAs unmarked ∧
      (Grammar.generic fun _ => false).read
          (Dialect.sqlite.scan (e.draft .sqlite .statement).lexemes) =
        some (.operator .equality
          (.operator .addition (.atom (.column "t" "a"))
            (.operator .multiplication (.atom (.column "t" "b")) (.atom (.column "t" "c"))))
          (.atom (.column "t" "d"))) := by
  intro column product e
  have foreign : Dialect.sqlite ≠ .mysql := by decide
  have marked : e.Marked := by
    refine .operator (by decide) (.operator (by decide) (.column _) ?_ ?_) (.bin (.column _)) nofun
    · exact .bin (.operator (by decide) (.column _) (.column _) nofun)
    · intro _
      decide
  have bare : e.BareAs unmarked := by decide
  exact ⟨foreign, marked, bare, (marked.read_unmarked foreign bare _).2⟩

/-- A marked sum is no operand of a product: the product takes the column next to it. -/
theorem Marked.not_read_unmarked :
    let column (name : String) : Node := of (.column ⟨⟨"t", none⟩, name⟩)
    let e := binary .multiplication
      (of (.unary .bin (binary .addition (column "a") (column "b")))) (column "c")
    e.Marked ∧
      (Grammar.generic fun _ => false).read
          (Dialect.generic.scan (e.draft .generic .statement).lexemes) ≠
        some e.unmarked.erased := by
  intro column e
  refine ⟨.operator (by decide) (.bin (.operator (by decide) (.column _) (.column _) nofun))
    (.column _) nofun, fun same => ?_⟩
  have tokens : Dialect.generic.scan (e.draft .generic .statement).lexemes =
      [.name "t", .mark .dot, .name "a", .mark (.operator .addition), .name "t", .mark .dot,
        .name "b", .mark (.operator .multiplication), .name "t", .mark .dot, .name "c"] := by
    decide +kernel
  rw [tokens] at same
  have signs : Tree.operator .addition _ _ = .operator .multiplication _ _ := Option.some.inj same
  cases signs

end Node

/-! ### Conjunctions of nothing -/

/-- The conjunction of nothing as the comparison that is written for it. -/
def Form.filled : Form Node → Node
  | and [] => Node.truth
  | form => .of form

namespace Node

/-- The expression with every conjunction of nothing replaced by a comparison. -/
def filled : Node → Node := rewrite Form.filled

/-- The expressions over columns and values with conjunctions of any length.  No associative
operator stands at the root of its own right operand. -/
inductive Hollow : Node → Prop
  | column (c : Column) : Hollow (of (.column c))
  | quoted {v : Value} (hv : v.isNull = false) : Hollow (of (.quoted v))
  | casted {v : Value} (c : Column) (hv : v.isNull = false) : Hollow (of (.casted v c))
  | grouping {e : Node} (he : Hollow e) : Hollow e.grouping
  | not {e : Node} (he : Hollow e) : Hollow e.not
  | and {items : List Node} (hitems : ∀ e ∈ items, Hollow e) : Hollow (of (.and items))
  | operator {op : BinaryOperator} {left right : Node} (hop : op ∈ BinaryOperator.infixes)
      (hleft : Hollow left) (hright : Hollow right)
      (apart : op.isAssociative = true → right.operator? ≠ some op) :
      Hollow (binary op left right)

theorem isGrouping_filled (e : Node) : e.filled.isGrouping = e.isGrouping := by
  obtain ⟨form⟩ := e
  rw [filled, rewrite_of]
  cases form with
  | unary op _ => cases op <;> rfl
  | and items => cases items <;> rfl
  | _ => rfl

/-- The only operator that is new at the root is the comparison. -/
theorem operator?_filled {e : Node} {op : BinaryOperator} (h : e.filled.operator? = some op) :
    e.operator? = some op ∨ op = .equality := by
  obtain ⟨form⟩ := e
  rw [filled, rewrite_of] at h
  cases form with
  | and items =>
      cases items with
      | nil =>
          cases h
          exact .inr rfl
      | cons _ _ => cases h
  | binary op' _ _ => exact .inl h
  | _ => cases h

theorem Hollow.respells {e : Node} (h : e.Hollow) (bare : e.BareAs filled) :
    Respells e e.filled := by
  induction h with
  | column c => exact .column c
  | quoted hv => exact .quoted hv
  | casted c hv => exact .casted c hv
  | @grouping e _ ih =>
      have replaced : e.grouping.filled = e.filled.grouping := rewrite_of _ _
      rw [replaced]
      exact .grouping (ih (bare.of_mem_parts (List.mem_singleton_self e)))
        e.isGrouping_filled.symm
  | @not e _ ih =>
      have replaced : e.not.filled = e.filled.not := rewrite_of _ _
      rw [replaced]
      exact .not (ih (bare.of_mem_parts (List.mem_singleton_self e)))
        (bare.root _ (List.mem_singleton_self _))
  | @and items hitems ih =>
      by_cases nonempty : items = []
      · subst nonempty
        exact .truth
      · have replaced : (of (.and items)).filled = of (.and (items.map filled)) := by
          rw [filled, rewrite_of]
          obtain ⟨first, rest, rfl⟩ := List.exists_cons_of_ne_nil nonempty
          rfl
        rw [replaced]
        exact .and_map nonempty (fun e he => ih e he (bare.item he).1) fun e he =>
          (bare.item he).2
  | @operator op left right hop _ _ apart ihl ihr =>
      have replaced : (binary op left right).filled = binary op left.filled right.filled :=
        rewrite_of _ _
      rw [replaced]
      obtain ⟨⟨hl, bareLeft⟩, hr, bareRight⟩ := bare.operands rfl rfl
      refine .operator hop (ihl hl) (ihr hr) (fun associative root => ?_) bareLeft bareRight
      rcases operator?_filled root with root | rfl
      · exact apart associative root
      · cases associative

/-- **The conjunction of nothing is read as a comparison.**  If no operand stands bare that a
comparison in its place would not, the tokens of the expression are read as what is left of it with
a comparison for every conjunction of nothing. -/
theorem Hollow.read_filled {e : Node} (h : e.Hollow) (bare : e.BareAs filled)
    (isFunction : String → Bool) :
    (e.draft .generic .statement).IsWhole ∧
      (Grammar.generic isFunction).read
          (Dialect.generic.scan (e.draft .generic .statement).lexemes) =
        some e.filled.erased := by
  have foreign : Dialect.generic ≠ .mysql := by decide
  exact (h.respells bare).read foreign isFunction

/-- A negated conjunction of nothing, and next to it one under OR. -/
theorem Hollow.read_filled_of_or :
    let column (name : String) : Node := of (.column ⟨⟨"t", none⟩, name⟩)
    let nothing : Node := of (.and [])
    let e := of (.and [nothing.not, binary .or nothing (column "a")])
    let one : Tree := .atom (.slot ⟨none, some (.integer 1)⟩)
    e.Hollow ∧ e.BareAs filled ∧
      (Grammar.generic fun _ => false).read
          (Dialect.generic.scan (e.draft .generic .statement).lexemes) =
        some (.and [.not (.operator .equality one one),
          .operator .or (.operator .equality one one) (.atom (.column "t" "a"))]) := by
  intro column nothing e one
  have empty : nothing.Hollow := .and nofun
  have hollow : e.Hollow := by
    refine .and ?_
    rintro item (_ | ⟨_, _ | ⟨_, ⟨⟩⟩⟩)
    · exact .not empty
    · exact .operator (by decide) empty (.column _) nofun
  have bare : e.BareAs filled := by decide
  exact ⟨hollow, bare, (hollow.read_filled bare _).2⟩

/-- Compared with a column, the conjunction of nothing is two comparisons in a row, which are not
accepted. -/
theorem Hollow.not_read_filled :
    let e := binary .equality (of (.and [])) (of (.column ⟨⟨"t", none⟩, "a"⟩))
    e.Hollow ∧
      (Grammar.generic fun _ => false).read
        (Dialect.generic.scan (e.draft .generic .statement).lexemes) = none := by
  intro e
  have tokens : Dialect.generic.scan (e.draft .generic .statement).lexemes =
      [.slot ⟨none, some (.integer 1)⟩, .mark (.operator .equality),
        .slot ⟨none, some (.integer 1)⟩, .mark (.operator .equality), .name "t", .mark .dot,
        .name "a"] := by
    decide +kernel
  refine ⟨.operator (by decide) (.and nofun) (.column _) nofun, ?_⟩
  rw [tokens]
  rfl

end Node

end SqlTree
