import SqlTree.Proofs.Writing.Alike
import SqlTree.Proofs.Writing.Draft
import SqlTree.Sql.Query

/-!
# SqlTree — Proofs — the slots of expressions

Dialects spell a construct in different ways, but they write its parts in one order.  So the slots
of a draft can be told without regard to the dialect: those of the parts that are written, one part
after the other.

`Draft.Writes` says which slots a draft has if it comes to its end; it composes along `++`.  Here it
is shown for operators, calls, cases, sort keys and windows.
-/

namespace SqlTree
open Draft

/-! ### The slots of a draft -/

/-- If the draft comes to its end, these are its slots, in order. -/
def Draft.Writes (a : Draft) (bs : List Bind) : Prop := a.IsWhole → Query.slots a.lexemes = bs

namespace Draft.Writes

variable {a b : Draft} {bs cs : List Bind}

theorem append (ha : a.Writes bs) (hb : b.Writes cs) : (a ++ b).Writes (bs ++ cs) := by
  intro whole
  obtain ⟨wa, wb⟩ := isWhole_append.mp whole
  rw [lexemes_append b wa, Query.slots, List.filterMap_append]
  exact congrArg₂ (· ++ ·) (ha wa) (hb wb)

/-- What stands before has no slots. -/
theorem before (ha : a.Writes []) (hb : b.Writes bs) : (a ++ b).Writes bs := ha.append hb

/-- What stands behind has no slots. -/
theorem behind (ha : a.Writes bs) (hb : b.Writes []) : (a ++ b).Writes bs := by
  simpa only [List.append_nil] using ha.append hb

theorem nothing : Draft.nothing.Writes [] := fun _ => rfl

theorem fixed (text : String) : (fixed text).Writes [] := fun _ => rfl

theorem verbatim (text : String) : (verbatim text).Writes [] := fun _ => rfl

theorem ident (text : String) : (ident text).Writes [] := fun _ => rfl

theorem stringLiteral (text : String) : (stringLiteral text).Writes [] := fun _ => rfl

theorem remark (isHint : Bool) (text : String) : (remark isHint text).Writes [] := fun _ => rfl

theorem slot (b : Bind) : (slot b).Writes [b] := fun _ => rfl

/-- A draft that stopped may be said to have any slots. -/
theorem fail (e : Error) : (fail e).Writes bs := fun whole => nomatch whole

theorem parens (h : a.Writes bs) : a.parens.Writes bs :=
  Draft.Writes.behind (.before (fun _ => rfl) h) fun _ => rfl

theorem onlyIf (condition : Bool) (h : a.Writes []) : (onlyIf condition a).Writes [] := by
  cases condition with
  | true => exact h
  | false => exact .nothing

theorem inOrder {as : List Draft} {bss : List (List Bind)} (h : List.Forall₂ Writes as bss) :
    (inOrder as).Writes bss.flatten := by
  induction h with
  | nil => exact .nothing
  | cons hab _ ih => exact hab.append ih

theorem sepBy (between : String) {as : List Draft} {bss : List (List Bind)}
    (h : List.Forall₂ Writes as bss) : (sepBy between as).Writes bss.flatten := by
  induction h with
  | nil => exact .nothing
  | cons hab hrest ih =>
      cases hrest with
      | nil => exact List.flatten_singleton ▸ hab
      | cons _ _ => exact (hab.behind (.fixed _)).append ih

theorem clause (keyword between : String) {as : List Draft} {bss : List (List Bind)}
    (h : List.Forall₂ Writes as bss) : (clause keyword between as).Writes bss.flatten := by
  cases h with
  | nil => exact .nothing
  | cons hab hrest => exact .before (.fixed _) (.sepBy between (.cons hab hrest))

theorem idents {α : Type} (between : String) (name : α → String) (xs : List α) :
    (Draft.sepBy between (xs.map fun x => Draft.ident (name x))).Writes [] := by
  have each : List.Forall₂ Writes (xs.map fun x => Draft.ident (name x)) (xs.map fun _ => []) :=
    forall₂_map fun x _ => ident (name x)
  simpa using sepBy between each

end Draft.Writes

/-! ### The slots of a part -/

/-- The part has these slots at every place; a column has none. -/
structure Part.Writes (p : Part) (bs : List Bind) : Prop where
  draft : ∀ place, (p.2 place).Writes bs
  column : ∀ c, p.node.outline = .column c → bs = []

namespace Part.Writes

variable {p : Part} {bs : List Bind} (h : p.Writes bs)
include h

theorem item : p.item.Writes bs := h.draft .item

theorem operand (least : Nat) : (p.operand least).Writes bs := by
  unfold Part.operand
  split
  · exact h.item.parens
  · exact h.item

theorem enclosed : p.enclosed.Writes bs := by
  unfold Part.enclosed
  split
  · exact h.item
  · exact h.item.parens

theorem bounds : p.bounds.Writes bs := by
  rw [p.told.bounds]
  split
  · exact h.draft .bounds
  · exact h.operand _

theorem members : p.members.Writes bs := by
  rw [p.told.members]
  split
  · exact h.item.parens
  · exact h.operand _

theorem target : p.target.Writes bs := by
  rw [p.told.target]
  split
  · next c hc => rw [h.column c (Outline.eq_column_of_bare hc)]; exact .ident _
  · exact h.item

theorem projection : p.projection.Writes bs := by
  rw [p.told.projection]
  split
  · exact (h.item.behind (.fixed _)).behind (.verbatim _)
  · exact h.item

end Part.Writes

section
variable {γ : Type} {u : γ → Part} {t : γ → List Bind}

theorem Draft.Writes.one {a : Draft} {x : γ} (h : a.Writes (t x)) : a.Writes ([x].flatMap t) := by
  rwa [List.flatMap_singleton]

theorem Draft.Writes.two {a : Draft} {x y : γ} (h : a.Writes (t x ++ t y)) :
    a.Writes ([x, y].flatMap t) := by
  simpa using h

/-! ### Lists -/

theorem Part.list_writes {xs : List γ} (h : ∀ x ∈ xs, (u x).Writes (t x)) :
    (Part.list (xs.map u)).Writes (xs.flatMap t) := by
  rw [Part.list, List.map_map]
  exact .sepBy _ (forall₂_map fun x hx => (h x hx).item)

theorem Part.forall₂_conjuncts (xs : List γ) (h : ∀ x ∈ xs, (u x).Writes (t x)) :
    List.Forall₂ Draft.Writes (Part.conjuncts (xs.map u)) (xs.map t) := by
  rw [Part.conjuncts, List.map_map]
  exact forall₂_map fun x hx => (h x hx).operand _

theorem conjunction_writes {xs : List γ} (h : ∀ x ∈ xs, (u x).Writes (t x)) :
    (conjunction (xs.map u)).Writes (xs.flatMap t) := by
  have conjuncts := Part.forall₂_conjuncts xs h
  cases xs with
  | nil => exact .fixed _
  | cons x xs => exact .sepBy _ conjuncts

theorem optional_writes (keyword : String) {x? : Option γ} (h : ∀ x ∈ x?, (u x).Writes (t x)) :
    (optional keyword (x?.map u)).Writes (x?.toList.flatMap t) := by
  cases x? with
  | none => exact .nothing
  | some x =>
      exact Draft.Writes.one (.before (.fixed _) (h x rfl).item)

/-! ### Operators -/

theorem Table.draft_writes (t : Table) : t.draft.Writes [] := by
  unfold Table.draft
  split
  · exact .before (.before (.ident _) (.fixed _)) (.ident _)
  · exact .ident _

theorem Column.draft_writes (c : Column) : c.draft.Writes [] := by
  refine .before (.before (.ident _) (.fixed _)) ?_
  split
  · exact .fixed _
  · exact .ident _

theorem UnaryOperator.draft_writes (d : Dialect) (op : UnaryOperator) {p : Part} {bs : List Bind}
    (h : p.Writes bs) : (op.draft d p).Writes bs := by
  cases op with
  | not | lateral => exact .before (.fixed _) (h.operand _)
  | grouping => exact h.enclosed
  | cube | rollup | groupingSet => exact .before (.fixed _) (h.draft _).parens
  | bin =>
      cases d with
      | mysql => exact .before (.fixed _) (h.operand _)
      | _ => exact h.item
  | leading text => exact .before (.verbatim _) (h.operand _)

theorem BinaryOperator.sign_writes (d : Dialect) (op : BinaryOperator) : (op.sign d).Writes [] := by
  cases op with
  | custom text => exact .before (.before (.fixed _) (.verbatim _)) (.fixed _)
  | _ => exact .fixed _

/-- The operands of an operator that are written: only the left one in a test for NULL, and none
where it is asked for membership in the empty list. -/
def BinaryOperator.written {α : Type} (node : α → Node) (op : BinaryOperator) (left right : α) :
    List α :=
  match op with
  | equality | notEqual | isDistinctFrom | isNotDistinctFrom =>
    if (node right).isNull then [left] else [left, right]
  | isIn | isNotIn => if (node right).outline.isEmptyList then [] else [left, right]
  | _ => [left, right]

theorem BinaryOperator.written_map {α β : Type} (f : α → β) (node : β → Node)
    (op : BinaryOperator) (left right : α) :
    op.written node (f left) (f right) =
      (op.written (fun x => node (f x)) left right).map f := by
  cases op with
  | equality | notEqual | isDistinctFrom | isNotDistinctFrom | isIn | isNotIn =>
      simp only [written]
      split_ifs
      · rfl
      · rfl
  | _ => rfl

section
variable {p q : Part} {bs cs : List Bind} (hp : p.Writes bs) (hq : q.Writes cs)
include hp hq

theorem BinaryOperator.spread_writes (d : Dialect) (op : BinaryOperator) :
    (op.spread d p q).Writes (bs ++ cs) :=
  ((hp.operand _).behind (op.sign_writes d)).append (hq.operand _)

omit hq in
theorem nullDraft_writes (negated : Bool) : (nullDraft negated p).Writes bs :=
  (hp.operand _).behind (.fixed _)

theorem distinctDraft_writes (d : Dialect) (negated : Bool) :
    (distinctDraft d negated p q).Writes (bs ++ cs) := by
  have left := hp.operand Strength.compared
  have right := hq.operand Strength.compared
  cases d with
  | mysql =>
      have negation : (onlyIf (!negated) (fixed "NOT ")).Writes [] := .onlyIf _ (.fixed _)
      exact ((negation.before left).behind (.fixed _)).append right
  | _ => exact (left.behind (.fixed _)).append right

theorem concatDraft_writes (d : Dialect) : (concatDraft d p q).Writes (bs ++ cs) := by
  cases d with
  | mysql => exact .before (.fixed _) ((hp.item.behind (.fixed _)).append hq.item).parens
  | _ => exact BinaryOperator.spread_writes hp hq _ _

theorem boundsDraft_writes : (boundsDraft p q).Writes (bs ++ cs) :=
  ((hp.operand _).behind (.fixed _)).append (hq.operand _)

theorem matchingDraft_writes (d : Dialect) (escape? : Option String)
    (caseSensitive negated : Bool) :
    (matchingDraft d p q escape? caseSensitive negated).Writes (bs ++ cs) := by
  refine .behind (((hp.operand _).behind (.fixed _)).append (hq.operand _)) ?_
  cases escape? with
  | none => exact .nothing
  | some escape => exact .before (.fixed _) (.stringLiteral _)

theorem regexpDraft_writes (d : Dialect) (caseSensitive negated : Bool) :
    (regexpDraft d p q caseSensitive negated).Writes (bs ++ cs) := by
  unfold regexpDraft
  split
  · exact ((hp.operand _).behind (.fixed _)).append (hq.operand _)
  · exact .fail _

end

section
variable {x y : γ} (hx : (u x).Writes (t x)) (hy : (u y).Writes (t y))
include hx hy

theorem membershipDraft_writes (negated : Bool) :
    (membershipDraft negated (u x) (u y)).Writes
      ((BinaryOperator.isIn.written (fun z => (u z).node) x y).flatMap t) := by
  simp only [membershipDraft, (u y).told.isEmptyList, Outline.isEmptyList_bare,
    BinaryOperator.written]
  split
  · exact .fixed _
  · simpa using ((hx.operand _).behind (.fixed _)).append hy.members

theorem BinaryOperator.draft_writes (d : Dialect) (op : BinaryOperator) :
    (op.draft d (u x) (u y)).Writes ((op.written (fun z => (u z).node) x y).flatMap t) := by
  cases op with
  | equality | notEqual =>
      simp only [BinaryOperator.draft, BinaryOperator.written]
      split
      · simpa using nullDraft_writes hx _
      · exact (spread_writes hx hy _ _).two
  | isNotDistinctFrom | isDistinctFrom =>
      simp only [BinaryOperator.draft, BinaryOperator.written]
      split
      · simpa using nullDraft_writes hx _
      · exact (distinctDraft_writes hx hy _ _).two
  | isIn | isNotIn => exact membershipDraft_writes hx hy _
  | between => exact (((hx.operand _).behind (.fixed _)).append hy.bounds).two
  | concat => exact (concatDraft_writes hx hy _).two
  | named => exact ((hx.item.behind (.fixed _)).append hy.item).two
  | assignment => exact ((hx.target.behind (.fixed _)).append hy.item).two
  | filter =>
      exact (((hx.operand _).behind (.fixed _)).append
        (Draft.Writes.before (.fixed _) hy.item).parens).two
  | _ => exact (spread_writes hx hy _ _).two

end

/-! ### Calls, cases and windows -/

theorem Call.draft_writes (c : Call γ) (h : ∀ x ∈ c.arguments, (u x).Writes (t x)) :
    (c.map u).draft.Writes (c.arguments.flatMap t) := by
  obtain ⟨kind, arguments, distinct, alias?⟩ := c
  have call : (Call.draft ⟨kind, arguments.map u, distinct, none⟩).Writes
      (arguments.flatMap t) := by
    have list := Part.list_writes h
    have written : (verbatim kind.text ++
        (onlyIf distinct (fixed "DISTINCT ") ++ Part.list (arguments.map u)).parens).Writes
          (arguments.flatMap t) :=
      .before (.verbatim _) (Draft.Writes.before (.onlyIf _ (.fixed _)) list).parens
    cases kind with
    | «exists» =>
        refine .before (.fixed _) ?_
        rw [List.map_map]
        exact .inOrder (forall₂_map fun x hx => (h x hx).operand _)
    | _ => exact written
  rcases alias? with _ | ⟨name, _ | _⟩
  · exact call
  · exact (call.behind (.fixed _)).behind (.verbatim _)
  · exact call

theorem extractDraft_writes (d : Dialect) (field : String) {p : Part} {bs : List Bind}
    (h : p.Writes bs) : (extractDraft d p field).Writes bs := by
  cases d with
  | sqlite => exact .fail _
  | _ =>
      refine .before (.fixed _) (Draft.Writes.parens ?_)
      exact .before (.before (.verbatim _) (.fixed _)) h.item

theorem castDraft_writes (typeName : String) {p : Part} {bs : List Bind} (h : p.Writes bs) :
    (castDraft p typeName).Writes bs :=
  .before (.fixed _) ((h.item.behind (.fixed _)).behind (.verbatim _)).parens

theorem Case.draft_writes (c : Case γ) (h : ∀ x ∈ c.parts, (u x).Writes (t x)) :
    (c.map u).draft.Writes (c.parts.flatMap t) := by
  obtain ⟨subject?, arms, default?⟩ := c
  simp only [Case.parts, List.mem_append, List.mem_flatMap, Option.mem_toList] at h
  have subject := optional_writes " " (u := u) fun x hx => h x (.inl (.inl hx))
  have default := optional_writes " ELSE " (u := u) fun x hx => h x (.inr hx)
  have written : (inOrder ((arms.map fun arm => (u arm.1, u arm.2)).map fun arm =>
      fixed " WHEN " ++ arm.1.item ++ fixed " THEN " ++ arm.2.item)).Writes
        ((arms.flatMap fun arm => [arm.1, arm.2]).flatMap t) := by
    rw [List.map_map, List.flatMap_assoc]
    refine .inOrder (forall₂_map fun arm harm => ?_)
    have condition := h arm.1 (.inl (.inr ⟨arm, harm, by simp⟩))
    have result := h arm.2 (.inl (.inr ⟨arm, harm, by simp⟩))
    have tested := (Draft.Writes.before (.fixed " WHEN ") condition.item).behind (.fixed " THEN ")
    simpa using tested.append result.item
  rw [Case.parts, List.flatMap_append, List.flatMap_append]
  exact (((Draft.Writes.before (.fixed _) subject).append written).append default).behind (.fixed _)

theorem SortKey.draft_writes (d : Dialect) (k : SortKey γ) (h : (u k.expr).Writes (t k.expr))
    (unplaced : d = .mysql → k.nulls? = none) : ((k.map u).draft d).Writes (t k.expr) := by
  have test : nullsTest d (k.map u) = nothing := by
    cases d with
    | mysql => simp [nullsTest, SortKey.map, unplaced rfl]
    | _ => rfl
  have words : (nullsWords d (k.map u).nulls?).Writes [] := by
    unfold nullsWords
    split
    · exact .nothing
    · exact .nothing
    · exact .fixed _
    · exact .fixed _
  rw [SortKey.draft, test, nothing_append]
  exact (h.item.behind (.fixed _)).behind words

theorem Window.draft_writes (w : Window γ) (h : ∀ x ∈ w.parts, (u x).Writes (t x)) :
    (w.map u).draft.Writes (w.parts.flatMap t) := by
  obtain ⟨partitions, orders, frame?⟩ := w
  have keyed (keyword : String) {xs : List γ} (hxs : ∀ x ∈ xs, (u x).Writes (t x)) :
      List.Forall₂ Draft.Writes
        (if (xs.map u).isEmpty then [] else [fixed keyword ++ Part.list (xs.map u)])
        (if xs.isEmpty then [] else [xs.flatMap t]) := by
    cases xs with
    | nil => exact .nil
    | cons x xs => exact .cons (.before (.fixed _) (Part.list_writes hxs)) .nil
  have flatten (xs : List γ) :
      (if xs.isEmpty then [] else [xs.flatMap t]).flatten = xs.flatMap t := by
    cases xs <;> simp
  have frame : List.Forall₂ Draft.Writes (frame?.toList.map fun f => fixed f.text)
      (frame?.toList.map fun _ => []) := forall₂_map fun _ _ => .fixed _
  have written := Draft.Writes.sepBy " " (List.rel_append (List.rel_append
    (keyed "PARTITION BY " fun x hx => h x (List.mem_append_left _ hx))
    (keyed "ORDER BY " fun x hx => h x (List.mem_append_right _ hx))) frame)
  have unframed : (frame?.toList.map fun _ => ([] : List Bind)).flatten = [] := by
    cases frame? <;> rfl
  rw [List.flatten_append, List.flatten_append, flatten, flatten, unframed,
    List.append_nil] at written
  show (Draft.parens _).Writes ((partitions ++ orders).flatMap t)
  rw [List.flatMap_append]
  exact written.parens

theorem NamedWindow.draft_writes (w : NamedWindow γ)
    (h : ∀ x ∈ w.window.parts, (u x).Writes (t x)) :
    (w.map u).draft.Writes (w.window.parts.flatMap t) :=
  .before (.before (.ident _) (.fixed _)) (w.window.draft_writes h)

theorem overDraft_writes {x : γ} (hx : (u x).Writes (t x)) (w : WindowRef γ)
    (h : ∀ x ∈ w.parts, (u x).Writes (t x)) :
    (overDraft (u x) (w.map u)).Writes ((x :: w.parts).flatMap t) := by
  refine ((hx.operand _).behind (.fixed _)).append ?_
  cases w with
  | empty => exact Draft.Writes.nothing.parens
  | named name => exact .ident _
  | inline w => exact w.draft_writes h

end

end SqlTree
