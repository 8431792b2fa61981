import SqlTree.Expr.Predicate
import SqlTree.Proofs.Tree.Parts
import SqlTree.Proofs.Writing.Draft

/-!
# SqlTree — Proofs — columns of a select on the right of IN

A select on the right of IN has to have as many columns as there are values on the left, where its
columns can be counted.  `Node.columns` are the columns that a projection is written as: a list is
written as its items, however deep, and a star stands for any number of columns, however it is
spelled.  The check counts projections instead, and knows a star only by its form.

* `Node.draft_eq_columns`: what is written for a tree are its columns, with commas between.
* `Select.IsCountable`: where the check sees as many columns as there are.
* `Node.selectMembership_eq`: when a select is refused, and that the check is right for every left
  side exactly where it can count the columns.
-/

namespace SqlTree
open Draft

/-! ### Columns -/

/-- The items of a list of values. -/
def Form.items? {α : Type} : Form α → Option (List α)
  | list items => some items
  | _ => none

theorem Form.items?_map {α β : Type} (f : α → β) (form : Form α) :
    (form.map f).items? = form.items?.map (List.map f) := by
  cases form <;> rfl

theorem Form.eq_list_of_items {α : Type} {form : Form α} {items : List α}
    (h : form.items? = some items) : form = .list items := by
  cases form with
  | list _ => exact congrArg list (Option.some.inj h)
  | _ => cases h

namespace Node

/-- The columns that a tree is written as in a SELECT list. -/
def columns : Node → List Node :=
  fold fun form => (form.items?.map (·.flatMap (·.2))).getD [of (form.map (·.1))]

theorem columns_of (form : Form Node) :
    (of form).columns = (form.items?.map (·.flatMap columns)).getD [of form] := by
  rw [columns, fold_of, Form.items?_map, Form.map_map, Form.map_id]
  cases form.items? with
  | none => rfl
  | some items =>
      simp only [Option.map_some, Option.getD_some, List.flatMap_map]

/-- No list in a list is without items. -/
def isFilled : Node → Bool :=
  fold fun form => (form.items?.map fun items => !items.isEmpty && items.all (·.2)).getD true

theorem isFilled_of (form : Form Node) :
    (of form).isFilled =
      (form.items?.map fun items => !items.isEmpty && items.all isFilled).getD true := by
  rw [isFilled, fold_of, Form.items?_map]
  cases form.items? with
  | none => rfl
  | some items => simp [Function.comp_def]

end Node

/-! ### The columns are what is written -/

/-- Lists of drafts one after the other. -/
theorem Draft.sepBy_flatMap (between : String) {α : Type} {as : List α} {f : α → Draft}
    {g : α → List Draft} (h : ∀ a ∈ as, g a ≠ [] ∧ f a = sepBy between (g a)) :
    sepBy between (as.map f) = sepBy between (as.flatMap g) := by
  induction as with
  | nil => rfl
  | cons a as ih =>
      obtain ⟨some_a, first⟩ := h a List.mem_cons_self
      have rest := ih fun b hb => h b (List.mem_cons_of_mem a hb)
      cases as with
      | nil =>
          rw [List.flatMap_cons, List.flatMap_nil, List.append_nil]
          exact first
      | cons b as =>
          have some_b : (b :: as).flatMap g ≠ [] := by
            simp [(h b (List.mem_cons_of_mem a List.mem_cons_self)).1]
          have apart : sepBy between ((a :: b :: as).flatMap g) =
              sepBy between (g a) ++ fixed between ++ sepBy between ((b :: as).flatMap g) := by
            rw [List.flatMap_cons]
            exact sepBy_append between some_a some_b
          have written : sepBy between ((a :: b :: as).map f) =
              f a ++ fixed between ++ sepBy between ((b :: as).map f) := rfl
          rw [written, apart, rest, first]

namespace Node

/-- **A tree in a SELECT list is written as its columns**, with commas between. -/
theorem draft_eq_columns (d : Dialect) {n : Node} (filled : n.isFilled = true) :
    n.columns ≠ [] ∧ n.draft d .item = sepBy ", " (n.columns.map (·.draft d .item)) := by
  induction n using Node.induction with
  | step form ih =>
      rw [columns_of]
      cases hi : form.items? with
      | none => exact ⟨List.cons_ne_nil _ _, rfl⟩
      | some items =>
          obtain rfl := Form.eq_list_of_items hi
          obtain ⟨some_item, each⟩ : items ≠ [] ∧ ∀ n ∈ items, n.isFilled = true := by
            simpa [isFilled_of, hi] using filled
          have columns_of_item := fun n hn => ih n hn (each n hn)
          refine ⟨?_, ?_⟩
          · obtain ⟨n, items, rfl⟩ := List.exists_cons_of_ne_nil some_item
            simp [(columns_of_item n List.mem_cons_self).1]
          · have written : (of (.list items)).draft d .item =
                sepBy ", " (items.map (·.draft d .item)) := by
              rw [draft_item, Form.map, Form.item, Part.list, List.map_map]
              rfl
            rw [written, sepBy_flatMap ", " (g := fun n => n.columns.map (·.draft d .item)) ?_]
            · simp [List.map_flatMap]
            · intro n hn
              obtain ⟨some_column, same⟩ := columns_of_item n hn
              exact ⟨fun h => some_column (List.map_eq_nil_iff.mp h), same⟩

/-- What is written for each column of a projection. -/
def columnDrafts (d : Dialect) (n : Node) : List Draft :=
  if n.form.items?.isSome then n.columns.map (·.draft d .item) else [(n.part d).projection]

theorem columnDrafts_eq (d : Dialect) {n : Node} (filled : n.isFilled = true) :
    (n.columnDrafts d).length = n.columns.length ∧ n.columnDrafts d ≠ [] ∧
      (n.part d).projection = sepBy ", " (n.columnDrafts d) := by
  obtain ⟨form⟩ := n
  obtain ⟨some_column, written⟩ := draft_eq_columns d filled
  rw [columnDrafts]
  cases hi : form.items? with
  | none =>
      rw [show (of form).form.items? = none from hi, columns_of, hi]
      exact ⟨rfl, List.cons_ne_nil _ _, rfl⟩
  | some items =>
      rw [show (of form).form.items? = some items from hi, if_pos Option.isSome_some]
      obtain rfl := Form.eq_list_of_items hi
      exact ⟨List.length_map _, fun h => some_column (List.map_eq_nil_iff.mp h), written⟩

end Node

/-- **A SELECT list is written as its columns**, with commas between. -/
theorem projectionsDraft_eq_columns (d : Dialect) {ps : List Node} (some_projection : ps ≠ [])
    (filled : ∀ p ∈ ps, p.isFilled = true) :
    ∃ drafts : List Draft, drafts.length = (ps.flatMap Node.columns).length ∧
      projectionsDraft (ps.map (Node.part d)) = sepBy ", " drafts := by
  refine ⟨ps.flatMap (Node.columnDrafts d), ?_, ?_⟩
  · rw [List.length_flatMap, List.length_flatMap]
    refine congrArg _ (List.map_congr_left fun p hp => ?_)
    exact (Node.columnDrafts_eq d (filled p hp)).1
  · have list : projectionsDraft (ps.map (Node.part d)) =
        sepBy ", " (ps.map fun p => (p.part d).projection) := by
      obtain ⟨p, ps, rfl⟩ := List.exists_cons_of_ne_nil some_projection
      rw [List.map_cons, projectionsDraft, ← List.map_cons, List.map_map]
      · rfl
      · exact List.cons_ne_nil _ _
    rw [list]
    exact sepBy_flatMap ", " fun p hp => (Node.columnDrafts_eq d (filled p hp)).2

/-! ### What can be counted -/

namespace Node

/-- The star of all columns, or of the columns of one table. -/
def isStar : Node → Bool
  | of .star => true
  | of (.column c) => c.isStar
  | of _ => false

/-- A star, also where the caller spells it. -/
def isAnyStar : Node → Bool
  | of (.sql text) => text == "*"
  | n => n.isStar

theorem isAnyStar_of_isStar {n : Node} (h : n.isStar = true) : n.isAnyStar = true := by
  obtain ⟨form⟩ := n
  cases form with
  | sql text => cases h
  | _ => exact h

theorem mem_columns_of_isStar {n : Node} (h : n.isStar = true) : n ∈ n.columns := by
  obtain ⟨form⟩ := n
  rw [columns_of]
  cases form with
  | list items => cases h
  | _ => exact List.mem_singleton_self _

end Node

namespace Select

/-- The columns that the SELECT list of the first block is written as. -/
def columns (s : Select Node) : List Node := s.firstCore.projections.flatMap Node.columns

/-- How many columns a select has; everything and a star are any number. -/
def columns? (s : Select Node) : Option Nat :=
  if s.firstCore.projections.isEmpty || s.columns.any Node.isAnyStar then none
  else some s.columns.length

/-- The check sees what there is: a star that it knows, or no star and as many columns as
projections. -/
def IsCountable (s : Select Node) : Prop :=
  (∃ p ∈ s.firstCore.projections, p.isStar = true) ∨
    s.columns.any Node.isAnyStar = false ∧ s.columns.length = s.firstCore.projections.length

theorem columns?_eq_some_iff {s : Select Node} {n : Nat} :
    s.columns? = some n ↔
      s.firstCore.projections ≠ [] ∧ s.columns.any Node.isAnyStar = false ∧
        s.columns.length = n := by
  rw [columns?, ite_eq_iff]
  simp only [reduceCtorEq, and_false, false_or, Bool.or_eq_true, not_or, List.isEmpty_iff,
    Bool.not_eq_true, Option.some_inj, and_assoc, ne_eq]

/-- What is known of the columns is what is written. -/
theorem written_of_columns {s : Select Node} {n : Nat} (known : s.columns? = some n)
    (filled : ∀ p ∈ s.firstCore.projections, p.isFilled = true) (d : Dialect) :
    ∃ drafts : List Draft, drafts.length = n ∧
      projectionsDraft (s.firstCore.projections.map (Node.part d)) = sepBy ", " drafts := by
  obtain ⟨some_projection, -, rfl⟩ := columns?_eq_some_iff.mp known
  exact projectionsDraft_eq_columns d some_projection filled

theorem arity?_eq (s : Select Node) :
    s.arity? =
      if s.firstCore.projections.isEmpty || s.firstCore.projections.any Node.isStar then none
      else some s.firstCore.projections.length := by
  rw [arity?]
  rfl

/-- The check counts the projections, if there are any and none is a star by its form. -/
theorem arity?_eq_some_iff {s : Select Node} {n : Nat} :
    s.arity? = some n ↔
      s.firstCore.projections ≠ [] ∧ (∀ p ∈ s.firstCore.projections, p.isStar = false) ∧
        s.firstCore.projections.length = n := by
  rw [arity?_eq, ite_eq_iff]
  simp [and_assoc]

/-- A star that the check knows is among the columns. -/
theorem any_isAnyStar_of_isStar {s : Select Node} {p : Node} (hp : p ∈ s.firstCore.projections)
    (star : p.isStar = true) : s.columns.any Node.isAnyStar = true := by
  have among : p ∈ s.columns := List.mem_flatMap.mpr ⟨p, hp, Node.mem_columns_of_isStar star⟩
  exact List.any_eq_true.mpr ⟨p, among, Node.isAnyStar_of_isStar star⟩

theorem arity?_eq_columns {s : Select Node} (h : s.IsCountable) : s.arity? = s.columns? := by
  rw [arity?_eq, columns?]
  rcases h with ⟨p, hp, star⟩ | ⟨starless, length⟩
  · have known : s.firstCore.projections.any Node.isStar = true :=
      List.any_eq_true.mpr ⟨p, hp, star⟩
    simp [known, any_isAnyStar_of_isStar hp star]
  · have known : s.firstCore.projections.any Node.isStar = false := by
      refine List.any_eq_false.mpr fun p hp star => ?_
      rw [any_isAnyStar_of_isStar hp star] at starless
      cases starless
    simp [known, starless, length]

end Select

/-! ### The check -/

namespace Node

variable (op : BinaryOperator) (left : Node)

theorem selectMembership_eq_error_iff {s : Select Node} {e : Error} :
    left.selectMembership op s = .error e ↔
      ∃ n, s.arity? = some n ∧ n ≠ left.arity ∧ e = .columnMismatch left.arity n := by
  rw [selectMembership]
  cases s.arity? with
  | none => simp
  | some n =>
      by_cases same : n = left.arity
      · simp [same]
      · simp [same, eq_comm]

theorem selectMembership_eq_ok {s : Select Node}
    (accepted : ∀ e, left.selectMembership op s ≠ .error e) :
    left.selectMembership op s = .ok (binary op left (of (.select s))) := by
  cases count : s.arity? with
  | none => rw [selectMembership, count]
  | some n =>
      by_cases same : n = left.arity
      · rw [selectMembership, count]
        exact if_pos same
      · have refused := (selectMembership_eq_error_iff op left).mpr ⟨n, count, same, rfl⟩
        exact absurd refused (accepted _)

/-- Values on the left of which there are as many as asked for. -/
theorem exists_arity (n : Nat) : ∃ left : Node, left.arity = n :=
  ⟨of (.list (List.replicate n (of .star))), by rw [arity, List.length_replicate]⟩

/-- A select that cannot be counted is refused for some left side, although its columns are not
known to be more or fewer than there are values. -/
theorem exists_refused {s : Select Node} (hidden : ¬s.IsCountable) :
    ∃ left e, selectMembership op left s = .error e ∧
      ∀ n, s.columns? = some n → n = left.arity := by
  obtain ⟨unknown, other⟩ := not_or.mp hidden
  have stars : ∀ p ∈ s.firstCore.projections, p.isStar = false := fun p hp =>
    Bool.eq_false_iff.mpr fun star => unknown ⟨p, hp, star⟩
  have some_projection : s.firstCore.projections ≠ [] := fun none => by
    simp [Select.columns, none] at other
  have counted := Select.arity?_eq_some_iff.mpr ⟨some_projection, stars, rfl⟩
  by_cases star : s.columns.any isAnyStar = true
  · obtain ⟨left, arity⟩ := exists_arity (s.firstCore.projections.length + 1)
    have differs : s.firstCore.projections.length ≠ left.arity := by omega
    refine ⟨left, _, (selectMembership_eq_error_iff op left).mpr ⟨_, counted, differs, rfl⟩, ?_⟩
    intro n known
    rw [(Select.columns?_eq_some_iff.mp known).2.1] at star
    cases star
  · obtain ⟨left, arity⟩ := exists_arity s.columns.length
    have differs : s.firstCore.projections.length ≠ left.arity := fun same =>
      other ⟨Bool.eq_false_iff.mpr star, (same.trans arity).symm⟩
    refine ⟨left, _, (selectMembership_eq_error_iff op left).mpr ⟨_, counted, differs, rfl⟩, ?_⟩
    intro n known
    rw [arity, (Select.columns?_eq_some_iff.mp known).2.2]

/-- **Membership in a select.**  A select is refused exactly if it has projections, none of them a
star by its form, and not as many as there are values on the left; the error tells both numbers.
Every other select is the right operand.  Where the projections can be counted, a select is refused
exactly if the number of columns that its SELECT list is written as is known and another; and only
there is it right for every left side. -/
theorem selectMembership_eq (s : Select Node) :
    (∀ left e, selectMembership op left s = .error e ↔
      s.firstCore.projections ≠ [] ∧ (∀ p ∈ s.firstCore.projections, p.isStar = false) ∧
        s.firstCore.projections.length ≠ left.arity ∧
        e = .columnMismatch left.arity s.firstCore.projections.length) ∧
    (∀ left, (∀ e, selectMembership op left s ≠ .error e) →
      selectMembership op left s = .ok (binary op left (of (.select s)))) ∧
    (s.IsCountable → ∀ left e, selectMembership op left s = .error e ↔
      ∃ n, s.columns? = some n ∧ n ≠ left.arity ∧ e = .columnMismatch left.arity n) ∧
    (¬s.IsCountable → ∃ left e, selectMembership op left s = .error e ∧
      ∀ n, s.columns? = some n → n = left.arity) ∧
    (∀ n, s.columns? = some n → (∀ p ∈ s.firstCore.projections, p.isFilled = true) →
      ∀ d, ∃ drafts : List Draft, drafts.length = n ∧
        projectionsDraft (s.firstCore.projections.map (part d)) = sepBy ", " drafts) := by
  refine ⟨fun left e => ?_, fun left => selectMembership_eq_ok op left, fun countable left e => ?_,
    exists_refused op, fun n => Select.written_of_columns⟩
  · rw [selectMembership_eq_error_iff]
    simp only [Select.arity?_eq_some_iff]
    constructor
    · rintro ⟨n, ⟨some_projection, stars, rfl⟩, differs, told⟩
      exact ⟨some_projection, stars, differs, told⟩
    · rintro ⟨some_projection, stars, differs, told⟩
      exact ⟨_, ⟨some_projection, stars, rfl⟩, differs, told⟩
  · rw [selectMembership_eq_error_iff, Select.arity?_eq_columns countable]

/-- Two columns, one of them in a list, on the right of one value, in the first block of a union. -/
theorem selectMembership_eq_of_union :
    let column (name : String) : Node := of (.column ⟨⟨"t", none⟩, name⟩)
    let pair := of (.list [column "c", column "d"])
    let first : Core Node := { projections := [column "a", of (.list [column "b"])] }
    let second : Core Node := { projections := [of .star] }
    let s : Select Node := .compound .union (.single first {}) (.single second {}) {}
    s.IsCountable ∧ s.columns? = some 2 ∧
      (column "c").selectMembership .isIn s = .error (.columnMismatch 1 2) ∧
      pair.selectMembership .isNotIn s = .ok (binary .isNotIn pair (of (.select s))) := by
  intro column pair first second s
  have countable : s.IsCountable := .inr ⟨rfl, rfl⟩
  obtain ⟨-, -, refused, -⟩ := selectMembership_eq .isIn s
  obtain ⟨-, accepted, counted, -⟩ := selectMembership_eq .isNotIn s
  have single := (refused countable (column "c") _).mpr ⟨2, rfl, by decide, rfl⟩
  refine ⟨countable, rfl, single, accepted pair fun e wrong => ?_⟩
  obtain ⟨n, two, differs, -⟩ := (counted countable pair e).mp wrong
  exact differs (Option.some.inj two).symm

/-- All columns, spelled by the caller, and two columns in one list: the check takes each for one
column, and refuses them where two values stand on the left. -/
theorem selectMembership_miscounts :
    let column (name : String) : Node := of (.column ⟨⟨"t", none⟩, name⟩)
    let left := of (.list [column "a", column "b"])
    let all : Select Node := .single { projections := [of (.sql "*")] } {}
    let listed : Select Node :=
      .single { projections := [of (.list [column "c", column "d"])] } {}
    (all.columns? = none ∧ listed.columns? = some left.arity) ∧
      left.selectMembership .isIn all = .error (.columnMismatch 2 1) ∧
      left.selectMembership .isIn listed = .error (.columnMismatch 2 1) := by
  intro column left all listed
  exact ⟨⟨rfl, rfl⟩, rfl, rfl⟩

end Node

end SqlTree
