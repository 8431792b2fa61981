import SqlTree.Proofs.Reading.Portability
import SqlTree.Proofs.Tree.Children
import SqlTree.Proofs.Writing.Fault

/-!
# SqlTree — Proofs — the values that a walk meets

`Node.walk` lists the values and parameters that a walk along the children meets.  A compiled query
has the slots of the written parts of the tree (`Node.slots`), and the children of a construct are
its written parts, with two exceptions: the expressions of DISTINCT ON are written but no children,
and the constraint of a raw join is a child that is not written (`Form.unseen`).

* `Node.binds_eq_walk`: where no value hides in these two, a query has the values that the walk
  meets, in the same order.
* `Node.binds_ne_walk`: a value in DISTINCT ON is bound, and the walk passes it by.
-/

namespace SqlTree

variable {α : Type}

/-! ### What a walk does not see -/

/-- The constraint of a raw join is not written. -/
def Join.unseen (j : Join α) : List α :=
  match j.kind with
  | .raw => (j.constraint?.map JoinConstraint.parts).getD []
  | _ => []

/-- What is either written or a child, but not both. -/
def Core.unseen (c : Core α) : List α :=
  (c.quantifier?.map SetQuantifier.parts).getD [] ++ c.source.joins.flatMap Join.unseen

def Form.unseen : Form α → List α
  | join j => j.unseen
  | form => form.cores.flatMap Core.unseen

/-- The right operand is written as it stands, and not replaced by the word NULL or left out with
the whole of an empty membership. -/
def BinaryOperator.keeps (op : BinaryOperator) (right : Node) : Bool :=
  match op with
  | equality | notEqual | isDistinctFrom | isNotDistinctFrom => !right.isNull
  | isIn | isNotIn => !right.outline.isEmptyList
  | _ => true

/-- Both operands of an operator are kept, and no rows are changed. -/
def Form.isKept : Form Node → Bool
  | binary op _ right => op.keeps right
  | update _ | delete _ => false
  | _ => true

/-! ### Written parts and children -/

section
variable {t : α → List Bind}

theorem Join.flatMap_written (j : Join α) (h : ∀ x ∈ j.unseen, t x = []) :
    j.written.flatMap t = j.parts.flatMap t := by
  obtain ⟨kind, relation, constraint?⟩ := j
  cases kind with
  | raw =>
      have none : ((constraint?.map JoinConstraint.parts).getD []).flatMap t = [] :=
        List.flatMap_eq_nil_iff.mpr h
      show [relation].flatMap t = (relation :: _).flatMap t
      rw [List.flatMap_cons, List.flatMap_cons, none]
      rfl
  | _ => rfl

theorem Source.flatMap_written (s : Source α)
    (h : ∀ j ∈ s.joins, ∀ x ∈ j.unseen, t x = []) :
    s.written.flatMap t = s.parts.flatMap t := by
  have joins : s.joins.flatMap (fun j => j.written.flatMap t) =
      s.joins.flatMap fun j => j.parts.flatMap t :=
    List.flatMap_congr fun j hj => j.flatMap_written (h j hj)
  rw [written, parts, List.flatMap_append, List.flatMap_append, List.flatMap_assoc,
    List.flatMap_assoc, joins]

theorem Core.flatMap_written (c : Core α) (h : ∀ x ∈ c.unseen, t x = []) :
    c.written.flatMap t = c.children.flatMap t := by
  have quantified : ((c.quantifier?.map SetQuantifier.parts).getD []).flatMap t = [] :=
    List.flatMap_eq_nil_iff.mpr fun x hx => h x (List.mem_append_left _ hx)
  have source := c.source.flatMap_written fun j hj x hx =>
    h x (List.mem_append_right _ (List.mem_flatMap.mpr ⟨j, hj, hx⟩))
  simp only [written, children, List.flatMap_append, quantified, source, List.nil_append]

theorem Select.flatMap_written : ∀ (s : Select α), (∀ c ∈ s.cores, ∀ x ∈ c.unseen, t x = []) →
    s.written.flatMap t = s.children.flatMap t
  | .single core m, h => by
      simp only [written, children, List.flatMap_append,
        core.flatMap_written (h core (List.mem_singleton_self core))]
  | .compound _ left right m, h => by
      have hl := left.flatMap_written fun c hc => h c (List.mem_append_left _ hc)
      have hr := right.flatMap_written fun c hc => h c (List.mem_append_right _ hc)
      simp only [written, children, List.flatMap_append, hl, hr, List.append_assoc]

end

/-- Where the walk misses nothing, the written parts of a construct have the slots of its
children. -/
theorem Form.flatMap_written {t : Node → List Bind} (form : Form Node) (kept : form.isKept = true)
    (h : ∀ x ∈ form.unseen, t x = []) :
    (form.written fun n => n).flatMap t = form.children.flatMap t := by
  cases form with
  | binary op left right =>
      have both : op.written (fun n => n) left right = [left, right] := by
        cases op with
        | equality | notEqual | isDistinctFrom | isNotDistinctFrom | isIn | isNotIn =>
            exact if_neg (by simpa [isKept, BinaryOperator.keeps] using kept)
        | _ => rfl
      exact congrArg (List.flatMap t) both
  | join j => exact j.flatMap_written h
  | select s =>
      refine s.flatMap_written fun c hc x hx => h x (List.mem_flatMap.mpr ⟨c, ?_, hx⟩)
      simpa [cores, select?] using hc
  | insert s =>
      obtain ⟨_, _, _ | rows | s⟩ := s
      · rfl
      · rfl
      · refine s.flatMap_written fun c hc x hx => h x (List.mem_flatMap.mpr ⟨c, ?_, hx⟩)
        simpa [cores, select?] using hc
  | update _ | delete _ => cases kept
  | _ => rfl

/-! ### What is not seen is part of the tree -/

theorem Join.mem_parts_of_mem_unseen {j : Join α} {x : α} (h : x ∈ j.unseen) : x ∈ j.parts := by
  obtain ⟨kind, relation, constraint?⟩ := j
  cases kind with
  | raw => exact List.mem_cons_of_mem _ h
  | _ => cases h

theorem Core.mem_parts_of_mem_unseen {c : Core α} {x : α} (h : x ∈ c.unseen) : x ∈ c.parts := by
  obtain h | h := List.mem_append.mp h
  · exact List.mem_append_left _ h
  · obtain ⟨j, hj, hx⟩ := List.mem_flatMap.mp h
    have joined : x ∈ c.source.parts := List.mem_append_right _
      (List.mem_flatMap.mpr ⟨j, hj, Join.mem_parts_of_mem_unseen hx⟩)
    simp [parts, children, joined]

theorem Select.mem_parts_of_mem_cores {c : Core α} {x : α} (hx : x ∈ c.parts) :
    ∀ {s : Select α}, c ∈ s.cores → x ∈ s.parts
  | .single core m, hc => by
      obtain rfl := List.mem_singleton.mp hc
      simp [parts, hx]
  | .compound _ left right m, hc => by
      obtain hc | hc := List.mem_append.mp hc
      · simp [parts, mem_parts_of_mem_cores hx hc]
      · simp [parts, mem_parts_of_mem_cores hx hc]

theorem Form.mem_parts_of_mem_unseen {form : Form α} {x : α} (h : x ∈ form.unseen) :
    x ∈ form.parts := by
  cases form with
  | join j => exact Join.mem_parts_of_mem_unseen h
  | select s =>
      obtain ⟨c, hc, hx⟩ := List.mem_flatMap.mp h
      refine Select.mem_parts_of_mem_cores (Core.mem_parts_of_mem_unseen hx) ?_
      simpa [cores, select?] using hc
  | insert s =>
      obtain ⟨_, _, _ | rows | s⟩ := s
      · cases h
      · cases h
      · obtain ⟨c, hc, hx⟩ := List.mem_flatMap.mp h
        refine Select.mem_parts_of_mem_cores (Core.mem_parts_of_mem_unseen hx) ?_
        simpa [cores, select?] using hc
  | _ => cases h

/-! ### The walk -/

namespace Node

/-- The values and parameters that a walk along the children meets. -/
def walk (n : Node) : List Bind := n.preorder.flatMap (·.form.own)

theorem walk_of (form : Form Node) :
    (of form).walk = form.own ++ form.children.flatMap walk := by
  rw [walk, preorder_of, List.flatMap_cons, List.flatMap_assoc]
  rfl

/-- What is written is what the walk meets. -/
theorem slots_eq_walk (n : Node) (kept : ∀ m ∈ n.subtrees, m.form.isKept = true)
    (seen : ∀ m ∈ n.subtrees, ∀ e ∈ m.form.unseen, e.walk = []) : n.slots = n.walk := by
  induction n using Node.induction with
  | step form ih =>
      have parts : ∀ n ∈ form.parts, n.slots = n.walk := fun n hn =>
        ih n hn (fun m hm => kept m (mem_subtrees_of_mem_parts hn hm))
          fun m hm => seen m (mem_subtrees_of_mem_parts hn hm)
      have root := self_mem_subtrees (of form)
      have written : (form.written fun n => n).flatMap slots = form.children.flatMap slots := by
        refine form.flatMap_written (kept _ root) fun e he => ?_
        rw [parts e (Form.mem_parts_of_mem_unseen he)]
        exact seen _ root e he
      rw [slots_of, walk_of, written,
        List.flatMap_congr fun n hn => parts n (Form.mem_parts_of_mem_children hn)]

/-- **A query has the values that a walk meets**, as often and in the same order.  Nothing in the
tree changes rows, no comparison with NULL or membership in the empty list is written without its
operands, and no value hides in DISTINCT ON or in the constraint of a raw join. -/
theorem binds_eq_walk {n : Node} {d : Dialect} {q : Query} (plain : d = .mysql → n.IsPlain)
    (kept : ∀ m ∈ n.subtrees, m.form.isKept = true)
    (seen : ∀ m ∈ n.subtrees, ∀ e ∈ m.form.unseen, e.walk = []) (h : n.compile d = .ok q) :
    q.binds = n.walk := by
  rw [binds_of_compile plain h, n.slots_eq_walk kept seen]

/-- The condition of a join is met before the limit. -/
theorem binds_eq_walk_of_join :
    let value (i : Int64) : Node := of (.quoted (.integer i))
    let n : Node := of (.select (.single
      { source := ⟨some (of (.table ⟨"users", none⟩)),
          [⟨.inner, of (.table ⟨"posts", none⟩), some (.on (of (.binary .equality
            (of (.unqualified ⟨⟨"posts", none⟩, "kind"⟩)) (value 1))))⟩]⟩ }
      { limit? := some (value 2) }))
    ∃ q, n.compile .postgresql = .ok q ∧ q.binds = n.walk ∧
      n.walk = [⟨none, some (.integer 1)⟩, ⟨none, some (.integer 2)⟩] := by
  intro value n
  have kept : ∀ m ∈ n.subtrees, m.form.isKept = true := by decide
  have seen : ∀ m ∈ n.subtrees, ∀ e ∈ m.form.unseen, e.walk = [] := by decide
  have whole : n.Renders .postgresql := rfl
  obtain ⟨q, compiled⟩ := renders_iff.mp whole
  exact ⟨q, compiled, binds_eq_walk (fun h => by cases h) kept seen compiled, rfl⟩

/-- **A value in DISTINCT ON is passed by**: it is bound, and it is not below any child. -/
theorem binds_ne_walk :
    let n : Node := of (.select (.single
      { projections := [of (.column ⟨⟨"t", none⟩, "a"⟩)]
        source := ⟨some (of (.table ⟨"t", none⟩)), []⟩
        quantifier? := some (.distinctOn [of (.quoted (.integer 1))]) } {}))
    (∀ m ∈ n.subtrees, m.form.isKept = true) ∧ ∃ q, n.compile .postgresql = .ok q ∧
      q.binds = [⟨none, some (.integer 1)⟩] ∧ n.walk = [] := by
  intro n
  have compiled : n.compile .postgresql = .ok _ := rfl
  exact ⟨by decide, _, compiled, rfl, rfl⟩

end Node

end SqlTree
