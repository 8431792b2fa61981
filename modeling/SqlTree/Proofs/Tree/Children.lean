import SqlTree.Node.Basic
import SqlTree.Proofs.Tree.Parts

/-!
# SqlTree — Proofs — the children of a tree

A reader of a tree who goes by `Node.children` alone meets some of its parts.  A walk from the root,
every construct before its children and these from left to right, is `Node.preorder`; a construct is
numbered by its place in the walk (`Node.layout`), and the children of a construct are numbered one
after the other from the next number on (`Node.numbered_subset_layoutFrom`).
-/

namespace SqlTree

variable {α β : Type} (f : α → β)

@[simp] theorem InsertSource.children_map :
    ∀ s : InsertSource α, (s.map f).children = s.children.map f
  | .values _ => by simp [InsertSource.map, InsertSource.children, List.map_flatten]
  | .select s => s.children_map f

/-- The children of a form with changed subtrees are its children, changed. -/
@[simp] theorem Form.children_map (form : Form α) :
    (form.map f).children = form.children.map f := by
  have all := form.parts_map f
  cases form with
  | select s => exact s.children_map f
  | insert s => cases hs : s.source? <;> simp [Form.map, Form.children, Insert.map, hs]
  | update s => exact s.children_map f
  | delete s => exact s.children_map f
  | _ => exact all

theorem Core.mem_parts_of_mem_children {c : Core α} {x : α} (h : x ∈ c.children) : x ∈ c.parts :=
  List.mem_append_right _ h

theorem Select.mem_parts_of_mem_children {x : α} :
    ∀ {s : Select α}, x ∈ s.children → x ∈ s.parts
  | .single core m, h => by
      simp only [Select.children, Select.parts, List.mem_append] at h ⊢
      exact h.imp_left (.imp_right Core.mem_parts_of_mem_children)
  | .compound _ left right m, h => by
      simp only [Select.children, Select.parts, List.mem_append] at h ⊢
      exact h.imp_left (.imp (.imp_right Select.mem_parts_of_mem_children)
        Select.mem_parts_of_mem_children)

/-- What a reader of the tree is shown is part of it. -/
theorem Form.mem_parts_of_mem_children {form : Form α} {x : α} (h : x ∈ form.children) :
    x ∈ form.parts := by
  cases form with
  | select s => exact Select.mem_parts_of_mem_children h
  | insert s =>
      obtain ⟨_, _, _ | rows | s⟩ := s
      · cases h
      · exact h
      · exact Select.mem_parts_of_mem_children h
  | update s => exact List.mem_append_left _ h
  | delete s => exact List.mem_append_left _ h
  | _ => exact h

/-! ### The walk through a tree -/

namespace Node

/-- The constructs that a walk along the children meets, each as the subtree below it. -/
def preorder : Node → List Node :=
  fold fun form => of (form.map (·.1)) :: form.children.flatMap (·.2)

theorem preorder_of (form : Form Node) :
    (of form).preorder = of form :: form.children.flatMap preorder := by
  rw [preorder, fold_of, Form.map_map, Form.children_map, List.flatMap_map, Form.map_id]

theorem length_preorder_pos (n : Node) : 0 < n.preorder.length := by
  obtain ⟨form⟩ := n
  rw [preorder_of]
  exact Nat.succ_pos _

/-- The constructs of the walk with their numbers, the first of which is given. -/
def layoutFrom (next : Nat) (n : Node) : List (Node × Nat) := n.preorder.zipIdx next

/-- The constructs of the walk with their places in it. -/
def layout (n : Node) : List (Node × Nat) := n.layoutFrom 0

/-- Trees that are numbered one after the other, each with the number of its root. -/
def numbered : (next : Nat) → List Node → List (Node × Nat)
  | _, [] => []
  | next, n :: ns => (n, next) :: numbered (next + n.preorder.length) ns

theorem length_numbered (next : Nat) (ns : List Node) : (numbered next ns).length = ns.length := by
  induction ns generalizing next with
  | nil => rfl
  | cons n ns ih => rw [numbered, List.length_cons, List.length_cons, ih]

theorem zipIdx_flatMap_preorder (next : Nat) (n : Node) (ns : List Node) :
    ((n :: ns).flatMap preorder).zipIdx next =
      n.layoutFrom next ++ (ns.flatMap preorder).zipIdx (next + n.preorder.length) := by
  rw [List.flatMap_cons, List.zipIdx_append]
  rfl

/-- The root comes first, and behind it its children stand one after the other. -/
theorem layoutFrom_of (next : Nat) (form : Form Node) :
    (of form).layoutFrom next =
      (of form, next) :: (form.children.flatMap preorder).zipIdx (next + 1) := by
  rw [layoutFrom, preorder_of, List.zipIdx_cons]

theorem mem_layoutFrom_self (next : Nat) (n : Node) : (n, next) ∈ n.layoutFrom next := by
  obtain ⟨form⟩ := n
  rw [layoutFrom_of]
  exact List.mem_cons_self

theorem numbered_subset (next : Nat) (ns : List Node) :
    numbered next ns ⊆ (ns.flatMap preorder).zipIdx next := by
  induction ns generalizing next with
  | nil => exact List.nil_subset _
  | cons n ns ih =>
      rw [zipIdx_flatMap_preorder, numbered]
      refine List.cons_subset.mpr ⟨?_, fun p hp => ?_⟩
      · exact List.mem_append_left _ (mem_layoutFrom_self next n)
      · exact List.mem_append_right _ (ih _ hp)

/-- What stands in the walk through one of several trees. -/
theorem mem_zipIdx_flatMap {next : Nat} {ns : List Node} {p : Node × Nat}
    (h : p ∈ (ns.flatMap preorder).zipIdx next) :
    ∃ q ∈ numbered next ns, p ∈ q.1.layoutFrom q.2 := by
  induction ns generalizing next with
  | nil => cases h
  | cons n ns ih =>
      rw [zipIdx_flatMap_preorder, List.mem_append] at h
      obtain h | h := h
      · exact ⟨(n, next), List.mem_cons_self, h⟩
      · obtain ⟨q, hq, hp⟩ := ih h
        exact ⟨q, List.mem_cons_of_mem _ hq, hp⟩

theorem mem_zipIdx_of_numbered {next : Nat} {ns : List Node} {p q : Node × Nat}
    (hq : q ∈ numbered next ns) (hp : p ∈ q.1.layoutFrom q.2) :
    p ∈ (ns.flatMap preorder).zipIdx next := by
  induction ns generalizing next with
  | nil => cases hq
  | cons n ns ih =>
      rw [zipIdx_flatMap_preorder, List.mem_append]
      obtain _ | ⟨_, hq⟩ := hq
      · exact .inl hp
      · exact .inr (ih hq)

theorem mem_of_mem_numbered {next : Nat} {ns : List Node} {q : Node × Nat}
    (h : q ∈ numbered next ns) : q.1 ∈ ns := by
  induction ns generalizing next with
  | nil => cases h
  | cons n ns ih =>
      obtain _ | ⟨_, h⟩ := h
      · exact List.mem_cons_self
      · exact List.mem_cons_of_mem _ (ih h)

/-- **The children of a construct** that stands in the walk have the numbers from the next one on,
each as many behind the one before as that one has constructs. -/
theorem numbered_subset_layoutFrom (next : Nat) (n : Node) :
    ∀ p ∈ n.layoutFrom next, numbered (p.2 + 1) p.1.children ⊆ n.layoutFrom next := by
  induction n using Node.induction generalizing next with
  | step form ih =>
      intro p hp
      rw [layoutFrom_of] at hp ⊢
      obtain _ | ⟨_, hp⟩ := hp
      · exact List.subset_cons_of_subset _ (numbered_subset (next + 1) form.children)
      · obtain ⟨q, hq, hpq⟩ := mem_zipIdx_flatMap hp
        have part := Form.mem_parts_of_mem_children (mem_of_mem_numbered hq)
        intro r hr
        exact List.mem_cons_of_mem _ (mem_zipIdx_of_numbered hq (ih q.1 part q.2 p hpq hr))

/-- A number of a tree stands between its first and the number of its constructs. -/
theorem bounds_of_mem_layoutFrom {next : Nat} {n : Node} {p : Node × Nat}
    (h : p ∈ n.layoutFrom next) : next ≤ p.2 ∧ p.2 < next + n.preorder.length :=
  ⟨List.le_snd_of_mem_zipIdx h, List.snd_lt_add_of_mem_zipIdx h⟩

end Node

end SqlTree
