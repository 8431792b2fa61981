import SqlTree.Proofs.Grammar.Expression
import SqlTree.Proofs.Grammar.Reads
import SqlTree.Proofs.Tree.Parts

/-!
# SqlTree — Proofs — subexpressions are read back

For each construct of an expression: if its operands are read back then so is the whole.

* `Node.ReadBack`: two facts about an expression that carry each other through an induction.  Its
  tokens are read as an operand of its own strength, and as an operand of AND they join the
  conjunction that has been read before.
-/

namespace SqlTree
open Draft Grammar

/-- The tokens of a draft. -/
abbrev Draft.toks (a : Draft) : List Token := Lexicon.generic.tokens a.lexemes

/-- The draft is whole, and its tokens are read as the tree. -/
structure Draft.Written (isFunction : String → Bool) (strength : Nat) (a : Draft) (t : Tree) :
    Prop where
  whole : a.IsWhole
  reads : (generic isFunction).Reads strength a.toks t

variable {isFunction : String → Bool} {m n : Nat} {a b : Draft} {t u : Tree}

theorem Draft.spells_toks (h : a.IsWhole) : a.Spells Lexicon.generic a.toks := ⟨h, rfl⟩

theorem Draft.Spells.written {toks : List Token} (h : a.Spells Lexicon.generic toks)
    (reads : (generic isFunction).Reads n toks t) : a.Written isFunction n t :=
  ⟨h.whole, by rw [Draft.toks, h.tokens]; exact reads⟩

namespace Draft.Written

theorem spells (h : a.Written isFunction n t) : a.Spells Lexicon.generic a.toks :=
  spells_toks h.whole

theorem mono (h : a.Written isFunction n t) (hmn : m ≤ n) : a.Written isFunction m t :=
  ⟨h.whole, h.reads.mono hmn⟩

theorem parens (h : a.Written isFunction 1 t) : a.parens.Written isFunction n t :=
  h.spells.parens.written h.reads.parens

end Draft.Written

/-! ### Words -/

theorem spells_and : (fixed " AND ").Spells Lexicon.generic [.mark .and] := .fixed rfl

/-- Each operator of the language is known by its sign. -/
theorem sign_infixes : ∀ op ∈ BinaryOperator.infixes, (op.sign .generic).fault? = none ∧
    (op.sign .generic).toks = [.mark (.operator op)] := by decide

theorem sign_spells {op : BinaryOperator} (h : op.IsInfix) : ∃ tok,
    (op.sign .generic).Spells Lexicon.generic [tok] ∧
      (tok = .mark (.operator op) ∨ ∃ text, tok = .word text ∧ op = .custom text) := by
  cases h with
  | known h =>
      obtain ⟨whole, tokens⟩ := sign_infixes op h
      exact ⟨.mark (.operator op), ⟨whole, tokens⟩, .inl rfl⟩
  | custom h =>
      refine ⟨.word _, ?_, .inr ⟨_, rfl, rfl⟩⟩
      exact ((Spells.fixed rfl).append (.verbatim h)).append (.fixed rfl)

/-! ### What the induction carries -/

variable (isFunction) in
/-- The expression is read back, and it can join a conjunction. -/
structure Node.ReadBack (e : Node) : Prop where
  positive : 1 ≤ e.strength
  written : (e.draft .generic .item).Written isFunction e.strength e.erased
  whole : ((e.part .generic).operand Strength.conjunction).IsWhole
  joins : (generic isFunction).Joins ((e.part .generic).operand Strength.conjunction).toks e.erased

namespace Node.ReadBack

variable {e e' : Node}

theorem item (h : e.ReadBack isFunction) :
    (e.draft .generic .item).Written isFunction 1 e.erased :=
  h.written.mono h.positive

/-- As an operand the expression stands bare only where it is strong enough. -/
theorem operand (h : e.ReadBack isFunction) (least : Nat) :
    ((e.part .generic).operand least).Written isFunction least e.erased := by
  unfold Part.operand
  split
  · exact h.item.parens
  · next strong => exact h.written.mono (Nat.le_of_not_lt strong)

/-- Anything but a conjunction joins a conjunction as one item. -/
theorem of_written (strength : e.strength = n) (positive : 1 ≤ n)
    (single : n ≠ Strength.conjunction)
    (written : (e.draft .generic .item).Written isFunction n e.erased) :
    e.ReadBack isFunction := by
  subst strength
  -- in parentheses, or else stronger than a conjunction
  have tight : ((e.part .generic).operand Strength.conjunction).Written isFunction
      (Strength.conjunction + 1) e.erased := by
    unfold Part.operand
    split
    · exact (written.mono positive).parens
    · next strong =>
        have stronger : Strength.conjunction + 1 ≤ e.strength :=
          Nat.lt_of_le_of_ne (Nat.le_of_not_lt strong) (Ne.symm single)
        exact written.mono stronger
  exact ⟨positive, written, tight.whole, tight.reads.joins⟩

/-- An expression that binds as an atom. -/
theorem of_atom (atom : e.strength = Strength.atom)
    (written : (e.draft .generic .item).Written isFunction Strength.atom e.erased) :
    e.ReadBack isFunction :=
  of_written atom (by decide) (by decide) written

/-! ### Atoms -/

theorem column (c : Column) : (of (.column c)).ReadBack isFunction := by
  refine of_atom rfl ?_
  have table : (ident c.table.qualifier ++ fixed ".").Spells Lexicon.generic
      [.name c.table.qualifier, .mark .dot] := (Spells.ident _).append (.fixed rfl)
  show (c.draft).Written isFunction _ _
  unfold Column.draft
  cases star : c.isStar with
  | true =>
      have name : c.name = "*" := by simpa [Column.isStar] using star
      refine (table.append (.fixed rfl)).written ?_
      rw [erased, name]
      exact .star _
  | false => exact (table.append (.ident c.name)).written (.column _ _)

theorem slot {e : Node} {b : Bind} (atom : e.strength = Strength.atom)
    (draft : e.draft .generic .item = Draft.slot b) (tree : e.erased = .atom (.slot b)) :
    e.ReadBack isFunction := by
  refine of_atom atom ?_
  rw [draft, tree]
  exact (Spells.slot b).written (.slot b)

theorem bool (b : Bool) : (of (.bool b)).ReadBack isFunction := by
  refine of_atom rfl ?_
  have word : (fixed (Dialect.generic.boolText b)).Spells Lexicon.generic [.mark (.truth b)] := by
    cases b <;> exact .fixed rfl
  exact word.written (.truth b)

/-! ### Lists -/

section
variable {items : List Node} (h : ∀ e ∈ items, e.ReadBack isFunction)
include h

/-- The items of a list are read one by one. -/
theorem reads_items : List.Forall₂ ((generic isFunction).Reads 1)
    (items.map fun e => (e.draft .generic .item).toks) (items.map erased) :=
  forall₂_map fun e he => (h e he).item.reads

/-- The items of a list are written with commas between. -/
theorem spells_list : (Part.list (items.map (part .generic))).Spells Lexicon.generic
    (separated (.mark .comma) (items.map fun e => (e.draft .generic .item).toks)) := by
  rw [Part.list, List.map_map]
  exact .sepBy rfl (forall₂_map fun e he => (h e he).item.spells)

theorem tuple : (of (.unary .grouping (of (.list items)))).ReadBack isFunction := by
  refine of_atom rfl ?_
  have draft : (of (.unary .grouping (of (.list items)))).draft .generic .item =
      (Part.list (items.map (part .generic))).parens := by
    rw [draft_item]
    exact congrArg Draft.parens (draft_item .generic (.list items))
  rw [draft, erased, erasedAll_eq_map]
  exact (spells_list h).parens.written (.group (reads_items h))

end

/-! ### Signs before an operand -/

theorem grouping (h : e.ReadBack isFunction) (apart : ∀ items, e ≠ of (.list items)) :
    (of (.unary .grouping e)).ReadBack isFunction := by
  refine of_atom rfl ?_
  have tree : (of (.unary .grouping e)).erased = e.erased := by
    obtain ⟨form⟩ := e
    cases form with
    | list items => exact absurd rfl (apart items)
    | _ => rfl
  rw [draft_item, tree]
  show (part .generic e).enclosed.Written isFunction _ _
  unfold Part.enclosed
  split
  -- what stands in parentheses of its own is an atom
  · next enclosed =>
      have atom : e.strength = Strength.atom := by
        obtain ⟨form⟩ := e
        cases form with
        | unary op _ => cases op <;> first | rfl | cases enclosed
        | select _ => rfl
        | _ => cases enclosed
      exact atom ▸ h.written
  · exact h.item.parens

theorem not (h : e.ReadBack isFunction) : (of (.unary .not e)).ReadBack isFunction := by
  refine of_written (n := Strength.negation) rfl (by decide) (by decide) ?_
  rw [draft_item]
  have operand := h.operand Strength.negation
  exact ((Spells.fixed rfl).append operand.spells).written (.not operand.reads)

theorem leading {text : String} (free : IsFree text) (plain : isFunction text = false)
    (h : e.ReadBack isFunction) : (of (.unary (.leading text) e)).ReadBack isFunction := by
  refine of_written (n := Strength.prefixed) rfl (by decide) (by decide) ?_
  rw [draft_item]
  have operand := h.operand Strength.prefixed
  exact ((Spells.verbatim free).append operand.spells).written (.leading plain operand.reads)

/-! ### Signs between operands -/

/-- How an operator between operands is written: a comparison with NULL is a test. -/
theorem infix_draft {op : BinaryOperator} (h : op.IsInfix) (left right : Part) :
    op.draft .generic left right =
      match op.nullTest?, right.node.isNull with
      | some negated, true => nullDraft negated left
      | _, _ => op.spread .generic left right := by
  cases op with
  | equality | notEqual | isDistinctFrom | isNotDistinctFrom =>
      cases null : right.node.isNull <;> simp only [BinaryOperator.draft, null] <;> rfl
  | isIn | isNotIn | between | named | assignment | filter =>
      cases h with
      | known h => simp [BinaryOperator.infixes] at h
  | _ => rfl

theorem infix_erased {op : BinaryOperator} (h : op.IsInfix) :
    (of (.binary op e e')).erased = .compared op e'.isNull e.erased e'.erased := by
  cases op with
  | isIn | isNotIn | between =>
      cases h with
      | known h => simp [BinaryOperator.infixes] at h
  | _ => rw [erased] <;> simp

/-- The operand on the left of an operator ends before it. -/
theorem infix_ends {op : BinaryOperator} (h : op.IsInfix) :
    (generic isFunction).Ends (if op.isComparison then op.strength + 1 else op.strength)
      op.strength := by
  have known : ∀ op ∈ BinaryOperator.infixes, op.isComparison = true ∨
      (generic fun _ => false).chains op.strength = true := by decide
  obtain h | h : op.isComparison = true ∨ (generic isFunction).chains op.strength = true := by
    cases h with
    | known h => exact known op h
    | custom _ => exact .inr rfl
  · rw [if_pos h]
    exact .inl (Nat.lt_succ_self _)
  · split
    · exact .inl (Nat.lt_succ_self _)
    · exact .inr ⟨rfl, h⟩

theorem spread_written {op : BinaryOperator} (hop : op.IsInfix) (h : e.ReadBack isFunction)
    (h' : e'.ReadBack isFunction) (apart : op.isAssociative = true → e'.operator? ≠ some op) :
    (op.spread .generic (e.part .generic) (e'.part .generic)).Written isFunction op.strength
      (.operator op e.erased e'.erased) := by
  obtain ⟨tok, sign, spelled⟩ := sign_spells hop
  have least : (if op.isAssociative && (e'.part .generic).node.operator? == some op
      then op.strength else op.strength + 1) = op.strength + 1 := by
    rw [if_neg]
    simpa [Part.node, part] using apart
  have left := h.operand (if op.isComparison then op.strength + 1 else op.strength)
  have right := h'.operand (op.strength + 1)
  have spells := (left.spells.append sign).append right.spells
  rw [List.append_assoc, List.singleton_append] at spells
  unfold BinaryOperator.spread
  rw [least]
  exact spells.written (.operator spelled left.reads (infix_ends hop) right.reads)

theorem nullDraft_written (negated : Bool) (h : e.ReadBack isFunction) :
    (nullDraft negated (e.part .generic)).Written isFunction Strength.comparison
      (.isNull negated e.erased) := by
  have operand := h.operand Strength.compared
  have word : (fixed (if negated then " IS NOT NULL" else " IS NULL")).Spells Lexicon.generic
      [.mark (.isNull negated)] := by
    cases negated <;> exact .fixed rfl
  exact (operand.spells.append word).written
    (.isNull negated operand.reads (.inl (Nat.lt_succ_self _)))

theorem operator {op : BinaryOperator} (hop : op.IsInfix) (h : e.ReadBack isFunction)
    (h' : e'.ReadBack isFunction) (apart : op.isAssociative = true → e'.operator? ≠ some op) :
    (of (.binary op e e')).ReadBack isFunction := by
  have strengths : ∀ op ∈ BinaryOperator.infixes, 1 ≤ op.strength ∧
      op.strength ≠ Strength.conjunction := by decide
  obtain ⟨positive, single⟩ : 1 ≤ op.strength ∧ op.strength ≠ Strength.conjunction := by
    cases hop with
    | known hop => exact strengths op hop
    | custom _ => exact ⟨Nat.le_of_ble_eq_true rfl, Nat.ne_of_beq_eq_false rfl⟩
  refine of_written (n := op.strength) rfl positive single ?_
  have spread := spread_written hop h h' apart
  have draft : (of (.binary op e e')).draft .generic .item =
      op.draft .generic (e.part .generic) (e'.part .generic) := draft_item .generic _
  rw [draft, infix_draft hop, infix_erased hop]
  unfold Tree.compared
  cases test : op.nullTest? with
  | none => exact spread
  | some negated =>
      cases null : e'.isNull with
      | false => simpa only [part, Part.node, null] using spread
      | true =>
          have comparison : op.strength = Strength.comparison := by
            cases op <;> first | rfl | cases test
          -- the right operand is not written
          rw [comparison]
          simpa only [part, Part.node, null] using nullDraft_written negated h

/-! ### Comparisons of more than two -/

theorem between {low high : Node} (h : e.ReadBack isFunction) (hlow : low.ReadBack isFunction)
    (hhigh : high.ReadBack isFunction) :
    (of (.binary .between e (of (.and [low, high])))).ReadBack isFunction := by
  refine of_written (n := Strength.comparison) rfl (by decide) (by decide) ?_
  have bounds : (of (.and [low, high])).draft .generic .bounds =
      boundsDraft (low.part .generic) (high.part .generic) := by
    rw [draft_of, Form.draft_bounds]
    rfl
  have draft : (of (.binary .between e (of (.and [low, high])))).draft .generic .item =
      (e.part .generic).operand Strength.compared ++ fixed " BETWEEN " ++
        boundsDraft (low.part .generic) (high.part .generic) := by
    rw [draft_item, ← bounds]
    rfl
  have left := h.operand Strength.compared
  have least := hlow.operand Strength.compared
  have greatest := hhigh.operand Strength.compared
  have word : (fixed " BETWEEN ").Spells Lexicon.generic [.mark .between] := .fixed rfl
  have spells := (left.spells.append word).append
    ((least.spells.append spells_and).append greatest.spells)
  simp only [List.append_assoc, List.singleton_append] at spells
  rw [draft, erased]
  exact spells.written
    (.between left.reads (.inl (Nat.lt_succ_self _)) least.reads greatest.reads)

theorem membership_written {items : List Node} (negated : Bool) (h : e.ReadBack isFunction)
    (nonempty : items ≠ []) (hitems : ∀ e ∈ items, e.ReadBack isFunction) :
    (membershipDraft negated (e.part .generic) ((of (.list items)).part .generic)).Written
      isFunction Strength.comparison (.member negated e.erased (items.map erased)) := by
  have draft : membershipDraft negated (e.part .generic) ((of (.list items)).part .generic) =
      (e.part .generic).operand Strength.compared ++
        fixed (if negated then " NOT IN " else " IN ") ++
          (Part.list (items.map (part .generic))).parens := by
    obtain _ | ⟨item, items⟩ := items
    · exact absurd rfl nonempty
    · have list := draft_item .generic (.list (item :: items))
      exact congrArg (_ ++ _ ++ Draft.parens ·) list
  have operand := h.operand Strength.compared
  have word : (fixed (if negated then " NOT IN " else " IN ")).Spells Lexicon.generic
      [.mark (.member negated)] := by
    cases negated <;> exact .fixed rfl
  have spells := (operand.spells.append word).append (spells_list hitems).parens
  rw [List.append_assoc, List.singleton_append] at spells
  rw [draft]
  have reads := Reads.member negated operand.reads (.inl (Nat.lt_succ_self _))
    (reads_items hitems) (by simpa using nonempty)
  rw [List.append_assoc] at reads
  exact spells.written reads

theorem isIn {items : List Node} (h : e.ReadBack isFunction) (nonempty : items ≠ [])
    (hitems : ∀ e ∈ items, e.ReadBack isFunction) :
    (of (.binary .isIn e (of (.list items)))).ReadBack isFunction := by
  refine of_written (n := Strength.comparison) rfl (by decide) (by decide) ?_
  rw [draft_item, erased, erasedAll_eq_map]
  exact membership_written false h nonempty hitems

theorem isNotIn {items : List Node} (h : e.ReadBack isFunction) (nonempty : items ≠ [])
    (hitems : ∀ e ∈ items, e.ReadBack isFunction) :
    (of (.binary .isNotIn e (of (.list items)))).ReadBack isFunction := by
  refine of_written (n := Strength.comparison) rfl (by decide) (by decide) ?_
  rw [draft_item, erased, erasedAll_eq_map]
  exact membership_written true h nonempty hitems

theorem matching (escape? : Option String) (caseSensitive negated : Bool)
    (h : e.ReadBack isFunction) (h' : e'.ReadBack isFunction) :
    (of (.matching e e' escape? caseSensitive negated)).ReadBack isFunction := by
  refine of_written (n := Strength.comparison) rfl (by decide) (by decide) ?_
  have left := h.operand Strength.compared
  have right := h'.operand Strength.compared
  have word : (fixed (" " ++ Dialect.generic.likeText caseSensitive negated ++ " ")).Spells
      Lexicon.generic [.mark (.like negated)] := by
    cases caseSensitive <;> cases negated <;> exact .fixed rfl
  have spells := (left.spells.append word).append right.spells
  rw [List.append_assoc, List.singleton_append] at spells
  rw [draft_item, erased]
  cases escape? with
  | none =>
      have whole := spells.append .nothing
      rw [List.append_nil] at whole
      exact whole.written (.like negated left.reads (.inl (Nat.lt_succ_self _)) right.reads)
  | some escape =>
      have word : (fixed " ESCAPE ").Spells Lexicon.generic [.mark .escape] := .fixed rfl
      have whole := spells.append (word.append (.stringLiteral escape))
      rw [List.append_assoc, List.cons_append] at whole
      exact whole.written
        (.likeEscape negated escape left.reads (.inl (Nat.lt_succ_self _)) right.reads)

/-! ### Calls and cases -/

theorem call {kind : FunctionKind} {arguments : List Node} (distinct : Bool)
    (hkind : kind ≠ .exists) (free : IsFree kind.text) (known : isFunction kind.text = true)
    (harguments : ∀ e ∈ arguments, e.ReadBack isFunction) :
    (of (.call ⟨kind, arguments, distinct, none⟩)).ReadBack isFunction := by
  refine of_atom rfl ?_
  have draft : (of (.call ⟨kind, arguments, distinct, none⟩)).draft .generic .item =
      verbatim kind.text ++
        (onlyIf distinct (fixed "DISTINCT ") ++
          Part.list (arguments.map (part .generic))).parens := by
    rw [draft_item]
    cases kind with
    | «exists» => exact absurd rfl hkind
    | _ => rfl
  have word : (fixed "DISTINCT ").Spells Lexicon.generic [.mark .distinct] := .fixed rfl
  have spells := (Spells.verbatim free).append
    ((Spells.onlyIf distinct word).append (spells_list harguments)).parens
  rw [draft, erased, erasedAll_eq_map]
  exact spells.written (.call known distinct (reads_items harguments))

theorem cast {typeName : String} (free : IsFree typeName) (h : e.ReadBack isFunction) :
    (of (.cast e typeName)).ReadBack isFunction := by
  refine of_atom rfl ?_
  have cast_word : (fixed "CAST").Spells Lexicon.generic [.mark .cast] := .fixed rfl
  have as_word : (fixed " AS ").Spells Lexicon.generic [.mark .naming] := .fixed rfl
  have spells := cast_word.append
    ((h.item.spells.append as_word).append (Spells.verbatim free)).parens
  rw [draft_item, erased]
  refine spells.written ?_
  have reads := Reads.cast (n := Strength.atom) typeName h.item.reads
  simpa only [List.append_assoc, List.cons_append, List.nil_append, List.singleton_append]
    using reads

/-- A keyword and an expression, if there is one. -/
theorem spells_optional {keyword : String} {word : List Token} {e? : Option Node}
    (hword : (fixed keyword).Spells Lexicon.generic word)
    (h : ∀ e ∈ e?, e.ReadBack isFunction) :
    (optional keyword (e?.map (part .generic))).Spells Lexicon.generic
      (((e?.map fun e => (e.draft .generic .item).toks).map (word ++ ·)).getD []) := by
  cases e? with
  | none => exact .nothing
  | some e => exact hword.append (h e rfl).item.spells

theorem reads_optional {e? : Option Node} (h : ∀ e ∈ e?, e.ReadBack isFunction) :
    Option.Rel ((generic isFunction).Reads 1) (e?.map fun e => (e.draft .generic .item).toks)
      (e?.map erased) := by
  cases e? with
  | none => exact .none
  | some e => exact .some (h e rfl).item.reads

/-- The tokens of the two parts of an arm. -/
def armToks (arm : Node × Node) : List Token × List Token :=
  ((arm.1.draft .generic .item).toks, (arm.2.draft .generic .item).toks)

theorem spells_arm {arm : Node × Node} (h : arm.1.ReadBack isFunction)
    (h' : arm.2.ReadBack isFunction) :
    (fixed " WHEN " ++ (arm.1.part .generic).item ++ fixed " THEN " ++
      (arm.2.part .generic).item).Spells Lexicon.generic (armTokens (armToks arm)) := by
  have when_word : (fixed " WHEN ").Spells Lexicon.generic [.mark .condition] := .fixed rfl
  have then_word : (fixed " THEN ").Spells Lexicon.generic [.mark .result] := .fixed rfl
  have spells := ((when_word.append h.item.spells).append then_word).append h'.item.spells
  rw [List.append_assoc, List.append_assoc] at spells
  exact spells

theorem cases {c : Case Node} (nonempty : c.arms ≠ [])
    (hparts : ∀ e ∈ c.parts, e.ReadBack isFunction) : (of (.cases c)).ReadBack isFunction := by
  obtain ⟨subject?, arms, default?⟩ := c
  simp only [Case.parts, List.mem_append, List.mem_flatMap, Option.mem_toList] at hparts
  have hsubject : ∀ e ∈ subject?, e.ReadBack isFunction := fun e he => hparts e (.inl (.inl he))
  have hdefault : ∀ e ∈ default?, e.ReadBack isFunction := fun e he => hparts e (.inr he)
  have harms : ∀ arm ∈ arms, arm.1.ReadBack isFunction ∧ arm.2.ReadBack isFunction :=
    fun arm harm => ⟨hparts arm.1 (.inl (.inr ⟨arm, harm, by simp⟩)),
      hparts arm.2 (.inl (.inr ⟨arm, harm, by simp⟩))⟩
  refine of_atom rfl ?_
  have case_word : (fixed "CASE").Spells Lexicon.generic [.mark .case] := .fixed rfl
  have gap : (fixed " ").Spells Lexicon.generic [] := .fixed rfl
  have else_word : (fixed " ELSE ").Spells Lexicon.generic [.mark .default] := .fixed rfl
  have end_word : (fixed " END").Spells Lexicon.generic [.mark .finish] := .fixed rfl
  have spells_arms : (inOrder (arms.map fun arm =>
      fixed " WHEN " ++ (arm.1.part .generic).item ++ fixed " THEN " ++
        (arm.2.part .generic).item)).Spells Lexicon.generic
      ((arms.map fun arm => armTokens (armToks arm)).flatten) :=
    .inOrder (forall₂_map fun arm harm => spells_arm (harms arm harm).1 (harms arm harm).2)
  have spells := (((case_word.append (spells_optional gap hsubject)).append spells_arms).append
    (spells_optional else_word hdefault)).append end_word
  have draft : (of (.cases ⟨subject?, arms, default?⟩)).draft .generic .item =
      fixed "CASE" ++ optional " " (subject?.map (part .generic)) ++
        inOrder (arms.map fun arm => fixed " WHEN " ++ (arm.1.part .generic).item ++
          fixed " THEN " ++ (arm.2.part .generic).item) ++
        optional " ELSE " (default?.map (part .generic)) ++ fixed " END" := by
    rw [draft_item]
    simp only [Form.map, Form.item, Case.map, Case.draft, List.map_map]
    rfl
  have reads_arms : List.Forall₂ (generic isFunction).ReadsArm (arms.map armToks)
      (arms.map fun arm => (arm.1.erased, arm.2.erased)) :=
    forall₂_map fun arm harm => ⟨(harms arm harm).1.item.reads, (harms arm harm).2.item.reads⟩
  have reads := Reads.cases (n := Strength.atom) reads_arms
    (by simpa using nonempty) (reads_optional hsubject) (reads_optional hdefault)
  rw [draft, erased, erasedOption_eq_map, erasedOption_eq_map, erasedArms_eq_map]
  refine spells.written ?_
  convert reads using 1
  cases subject? <;> cases default? <;>
    simp [List.flatMap_def, Function.comp_def]

/-! ### Conjunctions -/

/-- A conjunction of one item is that item. -/
theorem single (h : e.ReadBack isFunction) : (of (.and [e])).ReadBack isFunction := by
  have draft : (of (.and [e])).draft .generic .item =
      (e.part .generic).operand Strength.conjunction := draft_item .generic _
  have tree : (of (.and [e])).erased = e.erased := rfl
  have strength : (of (.and [e])).strength = e.strength := rfl
  by_cases weak : e.strength < Strength.conjunction
  -- the parentheses are those of the item: the conjunction itself adds none
  · refine of_written strength h.positive (Nat.ne_of_lt weak) ?_
    have bare : (e.part .generic).operand Strength.conjunction = (e.part .generic).item.parens :=
      if_pos weak
    rw [draft, tree, bare]
    exact h.item.parens
  · have bare : (e.part .generic).operand Strength.conjunction = e.draft .generic .item :=
      if_neg weak
    have again : ((of (.and [e])).part .generic).operand Strength.conjunction =
        (e.part .generic).operand Strength.conjunction := (if_neg weak).trans draft
    refine ⟨h.positive, ?_, ?_, ?_⟩
    · rw [draft, tree, strength, bare]
      exact h.written
    · rw [again]
      exact h.whole
    · rw [again, tree]
      exact h.joins

/-- The items of a conjunction with AND between. -/
theorem several {items : List Node} (h : e.ReadBack isFunction) (h' : e'.ReadBack isFunction)
    (hitems : ∀ e ∈ items, e.ReadBack isFunction) :
    (of (.and (e :: e' :: items))).ReadBack isFunction := by
  let toks (e : Node) := ((e.part .generic).operand Strength.conjunction).toks
  have all : ∀ x ∈ e :: e' :: items, x.ReadBack isFunction := by
    simp only [List.mem_cons, forall_eq_or_imp]
    exact ⟨h, h', hitems⟩
  have draft : (of (.and (e :: e' :: items))).draft .generic .item =
      sepBy " AND " ((e :: e' :: items).map fun x => (x.part .generic).operand
        Strength.conjunction) := by
    rw [draft_item]
    show sepBy " AND " (((e :: e' :: items).map (part .generic)).map _) = _
    rw [List.map_map]
    rfl
  have spells : ((of (.and (e :: e' :: items))).draft .generic .item).Spells Lexicon.generic
      (separated (.mark .and) ((e :: e' :: items).map toks)) := by
    rw [draft]
    exact .sepBy rfl (forall₂_map fun x hx => spells_toks (all x hx).whole)
  have joins : List.Forall₂ (generic isFunction).Joins ((e' :: items).map toks)
      ((e' :: items).map erased) :=
    forall₂_map fun x hx => (all x (List.mem_cons_of_mem e hx)).joins
  have tree : (of (.and (e :: e' :: items))).erased =
      .conjunction (e.erased :: (e' :: items).map erased) := by
    rw [erased, erasedAll_eq_map]
    rfl
  -- within another conjunction it has no parentheses, and all its items join
  have bare : ((of (.and (e :: e' :: items))).part .generic).operand Strength.conjunction =
      (of (.and (e :: e' :: items))).draft .generic .item := if_neg (Nat.lt_irrefl _)
  refine ⟨show 1 ≤ Strength.conjunction by decide, ?_, ?_, ?_⟩
  · rw [tree]
    exact spells.written (.conjunction (h.operand Strength.conjunction).reads joins)
  · rw [bare]
    exact spells.whole
  · rw [bare, tree, Draft.toks, spells.tokens]
    exact .conjunction h.joins joins

theorem and {items : List Node} (nonempty : items ≠ [])
    (hitems : ∀ e ∈ items, e.ReadBack isFunction) : (of (.and items)).ReadBack isFunction := by
  rcases items with _ | ⟨e, _ | ⟨e', items⟩⟩
  · exact absurd rfl nonempty
  · exact single (hitems e (by simp))
  · exact several (hitems e (by simp)) (hitems e' (by simp)) fun x hx => hitems x (by simp [hx])

end Node.ReadBack

end SqlTree
