import SqlTree.Proofs.Writing.Alike

/-!
# SqlTree — Proofs — expressions are written uniformly

One clause may be filled with parts in two ways, `u` and `v`.  If the parts are similar, place by
place, then the two drafts are related.  Here this is shown for operators, calls, cases, sort keys
and windows; none of them shows the implicit name of a part.
-/

namespace SqlTree
open Draft

variable {S : Draft → Draft → Prop} {γ : Type} {u v : γ → Part}

section
variable (hS : Congruence S)
include hS

/-! ### Columns and lists -/

theorem Table.draft_uniform (t : Table) : S t.draft t.draft := by
  unfold Table.draft
  split
  · exact hS.append (hS.append (hS.ident _) (hS.word rfl)) (hS.ident _)
  · exact hS.ident _

theorem Column.draft_uniform (c : Column) : S c.draft c.draft := by
  refine hS.append (hS.append (hS.ident _) (hS.word rfl)) ?_
  split
  · exact hS.word rfl
  · exact hS.ident _

theorem Part.list_uniform {xs : List γ} (h : ∀ x ∈ xs, Part.Similar S (u x) (v x)) :
    S (Part.list (xs.map u)) (Part.list (xs.map v)) := by
  simp only [Part.list, List.map_map]
  exact hS.sepBy rfl (forall₂_map fun x hx => (h x hx).item)

theorem Part.conjuncts_uniform {keyword : List Char} (wording : isWording keyword = true)
    (xs : List γ) (h : ∀ x ∈ xs, Part.Similar S (u x) (v x)) :
    S (clause (String.ofList keyword) " AND " (Part.conjuncts (xs.map u)))
      (clause (String.ofList keyword) " AND " (Part.conjuncts (xs.map v))) := by
  simp only [Part.conjuncts, List.map_map]
  exact hS.clause wording rfl (forall₂_map fun x hx => (h x hx).operand hS _)

theorem conjunction_uniform {xs : List γ} (h : ∀ x ∈ xs, Part.Similar S (u x) (v x)) :
    S (conjunction (xs.map u)) (conjunction (xs.map v)) := by
  cases xs with
  | nil => exact hS.word rfl
  | cons x xs =>
      show S (sepBy " AND " (Part.conjuncts ((x :: xs).map u)))
        (sepBy " AND " (Part.conjuncts ((x :: xs).map v)))
      simp only [Part.conjuncts, List.map_map]
      exact hS.sepBy rfl (forall₂_map fun y hy => (h y hy).operand hS _)

theorem optional_uniform {keyword : List Char} (wording : isWording keyword = true) {x? : Option γ}
    (h : ∀ x ∈ x?, Part.Similar S (u x) (v x)) :
    S (optional (String.ofList keyword) (x?.map u))
      (optional (String.ofList keyword) (x?.map v)) := by
  cases x? with
  | none => exact hS.nothing
  | some x => exact hS.append (hS.word wording) (h x rfl).item

theorem UnaryOperator.draft_uniform (d : Dialect) (op : UnaryOperator) {p q : Part}
    (h : Part.Similar S p q)
    (spelled : ∀ text, op = .leading text → S (verbatim text) (verbatim text)) :
    S (op.draft d p) (op.draft d q) := by
  cases op with
  | not | lateral => exact hS.append (hS.word rfl) (h.operand hS _)
  | grouping => exact h.enclosed hS
  | cube | rollup | groupingSet => exact hS.append (hS.word rfl) (hS.parens (h.draft _))
  | bin =>
      cases d with
      | mysql => exact hS.append (hS.word rfl) (h.operand hS _)
      | _ => exact h.item
  | leading text => exact hS.append (spelled text rfl) (h.operand hS _)

theorem BinaryOperator.sign_uniform (d : Dialect) (op : BinaryOperator)
    (spelled : ∀ text, op = .custom text → S (verbatim text) (verbatim text)) :
    S (op.sign d) (op.sign d) := by
  cases op with
  | custom text => exact hS.append (hS.append (hS.word rfl) (spelled text rfl)) (hS.word rfl)
  | _ => exact hS.fixed _ (isWording_operatorText d (by simp))

section
variable {p p' q q' : Part} (hp : Part.Similar S p p') (hq : Part.Similar S q q')
include hp hq

theorem BinaryOperator.spread_uniform (d : Dialect) (op : BinaryOperator)
    (spelled : ∀ text, op = .custom text → S (verbatim text) (verbatim text)) :
    S (op.spread d p q) (op.spread d p' q') := by
  simp only [BinaryOperator.spread, hq.operator?]
  exact hS.append (hS.append (hp.operand hS _) (op.sign_uniform hS d spelled)) (hq.operand hS _)

omit hq in
theorem nullDraft_uniform (negated : Bool) : S (nullDraft negated p) (nullDraft negated p') := by
  refine hS.append (hp.operand hS _) ?_
  cases negated with
  | true => exact hS.word rfl
  | false => exact hS.word rfl

theorem distinctDraft_uniform (d : Dialect) (negated : Bool) :
    S (distinctDraft d negated p q) (distinctDraft d negated p' q') := by
  have left := hp.operand hS Strength.compared
  have right := hq.operand hS Strength.compared
  cases d with
  | mysql =>
      exact hS.append (hS.append (hS.append (hS.onlyIf _ (hS.word rfl)) left) (hS.word rfl)) right
  | sqlite =>
      refine hS.append (hS.append left ?_) right
      cases negated with
      | true => exact hS.word rfl
      | false => exact hS.word rfl
  | generic | postgresql =>
      refine hS.append (hS.append left ?_) right
      cases negated with
      | true => exact hS.word rfl
      | false => exact hS.word rfl

theorem membershipDraft_uniform (negated : Bool) :
    S (membershipDraft negated p q) (membershipDraft negated p' q') := by
  simp only [membershipDraft, hq.isEmptyList]
  split
  · cases negated with
    | true => exact hS.word rfl
    | false => exact hS.word rfl
  · refine hS.append (hS.append (hp.operand hS _) ?_) (hq.members hS)
    cases negated with
    | true => exact hS.word rfl
    | false => exact hS.word rfl

theorem concatDraft_uniform (d : Dialect) : S (concatDraft d p q) (concatDraft d p' q') := by
  cases d with
  | mysql =>
      exact hS.append (hS.word rfl)
        (hS.parens (hS.append (hS.append hp.item (hS.word rfl)) hq.item))
  | _ => exact BinaryOperator.spread_uniform hS hp hq _ _ (by simp)

theorem BinaryOperator.draft_uniform (d : Dialect) (op : BinaryOperator)
    (spelled : ∀ text, op = .custom text → S (verbatim text) (verbatim text)) :
    S (op.draft d p q) (op.draft d p' q') := by
  cases op with
  | equality | notEqual =>
      simp only [BinaryOperator.draft, hq.isNull]
      split
      · exact nullDraft_uniform hS hp _
      · exact spread_uniform hS hp hq _ _ spelled
  | isNotDistinctFrom | isDistinctFrom =>
      simp only [BinaryOperator.draft, hq.isNull]
      split
      · exact nullDraft_uniform hS hp _
      · exact distinctDraft_uniform hS hp hq _ _
  | isIn | isNotIn => exact membershipDraft_uniform hS hp hq _
  | between => exact hS.append (hS.append (hp.operand hS _) (hS.word rfl)) (hq.bounds hS)
  | concat => exact concatDraft_uniform hS hp hq _
  | named => exact hS.append (hS.append hp.item (hS.word rfl)) hq.item
  | assignment => exact hS.append (hS.append (hp.target hS) (hS.word rfl)) hq.item
  | filter =>
      exact hS.append (hS.append (hp.operand hS _) (hS.word rfl))
        (hS.parens (hS.append (hS.word rfl) hq.item))
  | _ => exact spread_uniform hS hp hq _ _ spelled

theorem boundsDraft_uniform : S (boundsDraft p q) (boundsDraft p' q') :=
  hS.append (hS.append (hp.operand hS _) (hS.word rfl)) (hq.operand hS _)

theorem matchingDraft_uniform (d : Dialect) (escape? : Option String)
    (caseSensitive negated : Bool) :
    S (matchingDraft d p q escape? caseSensitive negated)
      (matchingDraft d p' q' escape? caseSensitive negated) := by
  have operator := hS.fixed _ (isWording_spaced (isWording_likeText d caseSensitive negated))
  refine hS.append (hS.append (hS.append (hp.operand hS _) operator) (hq.operand hS _)) ?_
  cases escape? with
  | none => exact hS.nothing
  | some escape => exact hS.append (hS.word rfl) (hS.stringLiteral _)

theorem regexpDraft_uniform (d : Dialect) (caseSensitive negated : Bool)
    (refused : ∀ e ∈ wordRefusals (d.regexpText caseSensitive negated), S (fail e) (fail e)) :
    S (regexpDraft d p q caseSensitive negated) (regexpDraft d p' q' caseSensitive negated) := by
  unfold regexpDraft
  cases hw : d.regexpText caseSensitive negated with
  | ok operator =>
      have operator_uniform := hS.fixed _ (isWording_spaced (isWording_regexpText d hw))
      exact hS.append (hS.append (hp.operand hS _) operator_uniform) (hq.operand hS _)
  | error e => exact refused e (by simp [hw, wordRefusals])

end

/-! ### Calls, cases and windows -/

theorem FunctionKind.text_uniform (kind : FunctionKind)
    (spelled : ∀ name, kind = .named name → S (verbatim name) (verbatim name)) :
    S (verbatim kind.text) (verbatim kind.text) := by
  cases kind with
  | named name => exact spelled name rfl
  | _ => exact hS.lexeme (.verbatim _) (isWording_functionKind (by simp))

theorem Call.draft_uniform (c : Call γ) (h : ∀ x ∈ c.arguments, Part.Similar S (u x) (v x))
    (raws : ∀ text ∈ c.raws, Spellable S text) : S (c.map u).draft (c.map v).draft := by
  obtain ⟨kind, arguments, distinct, alias?⟩ := c
  -- the alias comes after the call, if it is written at all
  have call : S (Call.draft ⟨kind, arguments.map u, distinct, none⟩)
      (Call.draft ⟨kind, arguments.map v, distinct, none⟩) := by
    have name := kind.text_uniform hS fun name hname =>
      (raws name (by simp [Call.raws, hname])).asGiven
    have distinctly := hS.onlyIf distinct (hS.fixed "DISTINCT " (isWording_ofList rfl))
    have list := hS.append name (hS.parens (hS.append distinctly (Part.list_uniform hS h)))
    cases kind with
    | «exists» =>
        refine hS.append (hS.word rfl) ?_
        simp only [List.map_map]
        exact hS.inOrder (forall₂_map fun x hx => (h x hx).operand hS _)
    | _ => exact list
  rcases alias? with _ | ⟨name, _ | _⟩
  · exact call
  · exact hS.append (hS.append call (hS.word rfl)) (raws name (by simp [Call.raws])).asGiven
  · exact call

theorem extractDraft_uniform (d : Dialect) (field : String) {p q : Part} (h : Part.Similar S p q)
    (refused : ∀ e ∈ (Form.extract p field).refusals d, S (fail e) (fail e))
    (spelled : Spellable S field) : S (extractDraft d p field) (extractDraft d q field) := by
  have source := hS.append (hS.fixed " FROM " (isWording_ofList rfl)) h.item
  have written := hS.append (hS.fixed "EXTRACT" (isWording_ofList rfl))
    (hS.parens (hS.append spelled.inCapitals source))
  cases d with
  | sqlite => exact refused _ (by simp [Form.refusals])
  | _ => exact written

theorem castDraft_uniform (typeName : String) {p q : Part} (h : Part.Similar S p q)
    (spelled : Spellable S typeName) : S (castDraft p typeName) (castDraft q typeName) :=
  hS.append (hS.word rfl)
    (hS.parens (hS.append (hS.append h.item (hS.word rfl)) spelled.asGiven))

theorem Case.draft_uniform (c : Case γ) (h : ∀ x ∈ c.parts, Part.Similar S (u x) (v x)) :
    S (c.map u).draft (c.map v).draft := by
  obtain ⟨subject?, arms, default?⟩ := c
  simp only [Case.parts, List.mem_append, List.mem_flatMap, Option.mem_toList] at h
  have subject : S (optional " " (subject?.map u)) (optional " " (subject?.map v)) :=
    optional_uniform hS rfl fun x hx => h x (.inl (.inl hx))
  have default : S (optional " ELSE " (default?.map u)) (optional " ELSE " (default?.map v)) :=
    optional_uniform hS rfl fun x hx => h x (.inr hx)
  refine hS.append
    (hS.append (hS.append (hS.append (hS.word rfl) subject) ?_) default) (hS.word rfl)
  simp only [Case.map, List.map_map]
  refine hS.inOrder (forall₂_map fun arm harm => ?_)
  have condition := h arm.1 (.inl (.inr ⟨arm, harm, by simp⟩))
  have result := h arm.2 (.inl (.inr ⟨arm, harm, by simp⟩))
  exact hS.append (hS.append (hS.append (hS.word rfl) condition.item) (hS.word rfl)) result.item

theorem nullsTest_uniform (d : Dialect) (k : SortKey γ) (h : Part.Similar S (u k.expr) (v k.expr)) :
    S (nullsTest d (k.map u)) (nullsTest d (k.map v)) := by
  obtain ⟨expr, direction, nulls?⟩ := k
  cases d with
  | mysql =>
      rcases nulls? with _ | _ | _
      · exact hS.nothing
      · exact hS.append (h.operand hS _) (hS.word rfl)
      · exact hS.append (h.operand hS _) (hS.word rfl)
  | _ => exact hS.nothing

theorem nullsWords_uniform (d : Dialect) (nulls? : Option NullsPlacement) :
    S (nullsWords d nulls?) (nullsWords d nulls?) := by
  unfold nullsWords
  split
  · exact hS.nothing
  · exact hS.nothing
  · exact hS.word rfl
  · exact hS.word rfl

theorem SortKey.draft_uniform (d : Dialect) (k : SortKey γ)
    (h : Part.Similar S (u k.expr) (v k.expr)) : S ((k.map u).draft d) ((k.map v).draft d) := by
  have direction := hS.fixed (" " ++ k.direction.text)
    (isWording_toList_append (isWording_ofList rfl) (isWording_direction k.direction))
  exact hS.append (hS.append (hS.append (nullsTest_uniform hS d k h) h.item) direction)
    (nullsWords_uniform hS d _)

theorem Window.draft_uniform (w : Window γ) (h : ∀ x ∈ w.parts, Part.Similar S (u x) (v x)) :
    S (w.map u).draft (w.map v).draft := by
  obtain ⟨partitions, orders, frame?⟩ := w
  have keyed (keyword : String) (wording : isWording keyword.toList = true) {xs : List γ}
      (hxs : ∀ x ∈ xs, Part.Similar S (u x) (v x)) : List.Forall₂ S
        (if (xs.map u).isEmpty then [] else [fixed keyword ++ Part.list (xs.map u)])
        (if (xs.map v).isEmpty then [] else [fixed keyword ++ Part.list (xs.map v)]) := by
    cases xs with
    | nil => exact .nil
    | cons x xs => exact .cons (hS.append (hS.fixed _ wording) (Part.list_uniform hS hxs)) .nil
  refine hS.parens (hS.sepBy rfl (List.rel_append (List.rel_append ?_ ?_) ?_))
  · exact keyed "PARTITION BY " (isWording_ofList rfl) fun x hx => h x (List.mem_append_left _ hx)
  · exact keyed "ORDER BY " (isWording_ofList rfl) fun x hx => h x (List.mem_append_right _ hx)
  · exact forall₂_map fun f _ => hS.fixed _ (isWording_frame f)

theorem NamedWindow.draft_uniform (w : NamedWindow γ)
    (h : ∀ x ∈ w.window.parts, Part.Similar S (u x) (v x)) : S (w.map u).draft (w.map v).draft :=
  hS.append (hS.append (hS.ident _) (hS.word rfl)) (w.window.draft_uniform hS h)

theorem overDraft_uniform {p q : Part} (hp : Part.Similar S p q) (w : WindowRef γ)
    (h : ∀ x ∈ w.parts, Part.Similar S (u x) (v x)) :
    S (overDraft p (w.map u)) (overDraft q (w.map v)) := by
  refine hS.append (hS.append (hp.operand hS _) (hS.word rfl)) ?_
  cases w with
  | empty => exact hS.parens hS.nothing
  | named name => exact hS.ident _
  | inline w => exact w.draft_uniform hS h

end

end SqlTree
