import Mathlib.Data.List.Perm.Basic
import SqlTree.Diagram
import SqlTree.Proofs.Tree.Children

/-!
# SqlTree — Proofs — what a diagram draws

The subtrees of a vertex are drawn beside each other, each with numbers of its own (`Forest`), so
that no edge of one leaves a vertex of another.  What is drawn for a tree has the constructs of the
walk for its vertices and leads from each construct to its children (`Diagram.Draws`).

* `Node.diagram_draws`: the diagram of a tree draws it.
* `Diagram.Draws.sketch_eq`: what a diagram draws is determined up to the kinds, the details and the
  places of its constructs.
-/

namespace SqlTree

section
variable {α β : Type} (f : α → β)

@[simp] theorem Form.kind_map (form : Form α) : (form.map f).kind = form.kind := by
  cases form with
  | bool b => cases b <;> rfl
  | _ => rfl

@[simp] theorem Form.detail?_map (form : Form α) : (form.map f).detail? = form.detail? := by
  cases form <;> rfl

end

/-! ### What is drawn -/

/-- The vertex of a construct with its number. -/
def Vertex.ofNumbered (p : Node × Nat) : Vertex := ⟨p.2, p.1.kind, p.1.form.detail?⟩

namespace Diagram

/-- The edges that leave a vertex. -/
def leaving (edges : List (Nat × Nat)) (id : Nat) : List (Nat × Nat) := edges.filter (·.1 == id)

/-- One edge from a vertex to each of these trees. -/
def fan (id : Nat) (ps : List (Node × Nat)) : List (Nat × Nat) := ps.map fun p => (id, p.2)

/-- The diagram has a vertex for every construct of the walk, in the order of the walk, and as many
edges but one; those that leave a vertex lead to the children of its construct, in order, and every
vertex but the first is entered by one. -/
structure Draws (g : Diagram) (n : Node) : Prop where
  ids : g.vertices.map Vertex.id = List.range n.preorder.length
  vertices : g.vertices = n.layout.map Vertex.ofNumbered
  count : g.edges.length + 1 = n.preorder.length
  /-- The children have these numbers in the walk. -/
  numbered : ∀ p ∈ n.layout, Node.numbered (p.2 + 1) p.1.children ⊆ n.layout
  leaving : ∀ p ∈ n.layout, leaving g.edges p.2 = fan p.2 (Node.numbered (p.2 + 1) p.1.children)
  entered : (g.edges.map (·.2)).Perm (List.range' 1 (n.preorder.length - 1))

/-- What is drawn for a tree with the numbers from the given one on. -/
structure DrawsFrom (next : Nat) (g : Diagram) (n : Node) : Prop where
  vertices : g.vertices = (n.layoutFrom next).map Vertex.ofNumbered
  sources : ∀ e ∈ g.edges, next ≤ e.1 ∧ e.1 < next + n.preorder.length
  leaving : ∀ p ∈ n.layoutFrom next,
    leaving g.edges p.2 = fan p.2 (Node.numbered (p.2 + 1) p.1.children)
  entered : (g.edges.map (·.2)).Perm (List.range' (next + 1) (n.preorder.length - 1))

/-- What is drawn for the children of a vertex. -/
structure Forest (parent next : Nat) (g : Diagram) (ns : List Node) : Prop where
  vertices : g.vertices = ((ns.flatMap Node.preorder).zipIdx next).map Vertex.ofNumbered
  sources : ∀ e ∈ g.edges, e.1 = parent ∨
    next ≤ e.1 ∧ e.1 < next + (ns.flatMap Node.preorder).length
  fan : Diagram.leaving g.edges parent = fan parent (Node.numbered next ns)
  leaving : ∀ p ∈ (ns.flatMap Node.preorder).zipIdx next,
    leaving g.edges p.2 = Diagram.fan p.2 (Node.numbered (p.2 + 1) p.1.children)
  entered : (g.edges.map (·.2)).Perm (List.range' next (ns.flatMap Node.preorder).length)

theorem leaving_append (es es' : List (Nat × Nat)) (id : Nat) :
    leaving (es ++ es') id = leaving es id ++ leaving es' id := List.filter_append ..

theorem leaving_eq_nil {es : List (Nat × Nat)} {id : Nat} (h : ∀ e ∈ es, e.1 ≠ id) :
    leaving es id = [] := by
  refine List.filter_eq_nil_iff.mpr fun e he => ?_
  rw [beq_iff_eq]
  exact h e he

theorem leaving_singleton (id target : Nat) : leaving [(id, target)] id = [(id, target)] :=
  List.filter_cons_of_pos (beq_self_eq_true id)

/-! ### A forest -/

variable {parent next : Nat}

theorem Forest.nil : Forest parent next ⟨[], []⟩ [] where
  vertices := rfl
  sources := by simp
  fan := rfl
  leaving := by simp
  entered := .refl _

/-- A tree, the edge that leads to it, and the trees after it. -/
theorem Forest.cons {n : Node} {ns : List Node} {g h : Diagram} (before : parent < next)
    (hg : DrawsFrom next g n) (hh : Forest parent (next + n.preorder.length) h ns) :
    Forest parent next ((g.beside ⟨[], [(parent, next)]⟩).beside h) (n :: ns) := by
  have total : ((n :: ns).flatMap Node.preorder).length =
      n.preorder.length + (ns.flatMap Node.preorder).length := by
    rw [List.flatMap_cons, List.length_append]
  have size := n.length_preorder_pos
  have edges : ((g.beside ⟨[], [(parent, next)]⟩).beside h).edges =
      g.edges ++ [(parent, next)] ++ h.edges := rfl
  refine ⟨?_, ?_, ?_, ?_, ?_⟩
  · rw [Node.zipIdx_flatMap_preorder, List.map_append, ← hg.vertices, ← hh.vertices]
    simp only [beside, List.append_nil]
  · intro e he
    rw [edges, List.append_assoc, List.mem_append, List.mem_append, List.mem_singleton] at he
    rw [total]
    obtain he | rfl | he := he
    · have := hg.sources e he
      exact .inr (by omega)
    · exact .inl rfl
    · obtain same | inside := hh.sources e he
      · exact .inl same
      · exact .inr (by omega)
  · -- no edge of the tree leaves the parent, whose number is smaller
    have none : Diagram.leaving g.edges parent = [] := leaving_eq_nil fun e he => by
      have := hg.sources e he
      omega
    rw [edges, leaving_append, leaving_append, none, leaving_singleton, hh.fan]
    rfl
  · intro p hp
    rw [Node.zipIdx_flatMap_preorder, List.mem_append] at hp
    rw [edges, leaving_append, leaving_append]
    obtain hp | hp := hp
    · have bounds := Node.bounds_of_mem_layoutFrom hp
      have edge : Diagram.leaving [(parent, next)] p.2 = [] := leaving_eq_nil fun e he => by
        obtain rfl := List.mem_singleton.mp he
        exact Nat.ne_of_lt (Nat.lt_of_lt_of_le before bounds.1)
      have rest : Diagram.leaving h.edges p.2 = [] := leaving_eq_nil fun e he => by
        have := hh.sources e he
        omega
      rw [edge, rest, hg.leaving p hp, List.append_nil, List.append_nil]
    · have above : next + n.preorder.length ≤ p.2 := List.le_snd_of_mem_zipIdx hp
      have tree : Diagram.leaving g.edges p.2 = [] := leaving_eq_nil fun e he => by
        have := hg.sources e he
        omega
      have edge : Diagram.leaving [(parent, next)] p.2 = [] := leaving_eq_nil fun e he => by
        obtain rfl := List.mem_singleton.mp he
        show parent ≠ p.2
        omega
      rw [tree, edge, hh.leaving p hp, List.nil_append, List.nil_append]
  · -- the edge to the tree follows the edges inside of it
    have numbers : List.range' next ((n :: ns).flatMap Node.preorder).length =
        next :: List.range' (next + 1) (n.preorder.length - 1) ++
          List.range' (next + n.preorder.length) (ns.flatMap Node.preorder).length := by
      rw [total, ← List.range'_append_1, ← List.range'_succ, Nat.sub_add_cancel size]
    rw [edges, numbers, List.map_append, List.map_append]
    have tree := (hg.entered.append_right [next]).trans (List.perm_append_singleton ..)
    exact tree.append hh.entered

theorem forest_draws {draw : Node → Nat → Diagram} (before : parent < next) {ns : List Node}
    (h : ∀ n ∈ ns, ∀ next, DrawsFrom next (draw n next) n) :
    Forest parent next (forest parent next (ns.map draw)) ns := by
  induction ns generalizing next with
  | nil => exact .nil
  | cons n ns ih =>
      have drawn := h n List.mem_cons_self next
      have size : (draw n next).vertices.length = n.preorder.length := by
        rw [drawn.vertices, List.length_map, Node.layoutFrom, List.length_zipIdx]
      rw [List.map_cons, forest, size]
      exact Forest.cons before drawn (ih (by omega) fun m hm => h m (List.mem_cons_of_mem _ hm))

end Diagram

/-! ### A tree -/

namespace Node
open Diagram

/-- The diagram of a tree whose root has the given number. -/
def diagramFrom (n : Node) (next : Nat) : Diagram := n.fold Form.diagram next

theorem diagramFrom_of (form : Form Node) (next : Nat) :
    (of form).diagramFrom next = Diagram.beside ⟨[⟨next, form.kind, form.detail?⟩], []⟩
      (forest next (next + 1) (form.children.map diagramFrom)) := by
  rw [diagramFrom, fold_of, Form.diagram, Form.kind_map, Form.detail?_map, Form.children_map,
    List.map_map]
  rfl

theorem diagramFrom_draws (n : Node) (next : Nat) : DrawsFrom next (n.diagramFrom next) n := by
  induction n using Node.induction generalizing next with
  | step form ih =>
      have children : Forest next (next + 1) (forest next (next + 1)
          (form.children.map diagramFrom)) form.children :=
        forest_draws (Nat.lt_succ_self next) fun n hn => ih n (Form.mem_parts_of_mem_children hn)
      have size : (of form).preorder.length = (form.children.flatMap preorder).length + 1 := by
        rw [preorder_of, List.length_cons]
      rw [diagramFrom_of]
      refine ⟨?_, ?_, ?_, ?_⟩
      · rw [layoutFrom_of, List.map_cons, ← children.vertices]
        rfl
      · intro e he
        have := children.sources e he
        omega
      · intro p hp
        rw [layoutFrom_of] at hp
        obtain _ | ⟨_, hp⟩ := hp
        · exact children.fan
        · exact children.leaving p hp
      · rw [size]
        exact children.entered

/-- **The diagram of a tree draws it.** -/
theorem diagram_draws (n : Node) : n.diagram.Draws n := by
  have drawn : DrawsFrom 0 n.diagram n := n.diagramFrom_draws 0
  refine ⟨?_, drawn.vertices, ?_, n.numbered_subset_layoutFrom 0, drawn.leaving, ?_⟩
  · rw [drawn.vertices, List.map_map, List.range_eq_range', ← List.zipIdx_map_snd 0 n.preorder]
    rfl
  · have numbers : (n.diagram.edges.map (·.2)).length = n.preorder.length - 1 := by
      rw [drawn.entered.length_eq, List.length_range']
    rw [List.length_map] at numbers
    rw [numbers, Nat.sub_add_cancel n.length_preorder_pos]
  · exact drawn.entered

end Node

/-! ### What a diagram determines -/

/-- A tree with nothing but the kinds and the details of its constructs. -/
inductive Sketch where
  | vertex (kind : String) (detail? : Option String) (children : List Sketch)

namespace Node

/-- What a diagram shows of the tree. -/
def sketch : Node → Sketch :=
  fold fun form => .vertex form.kind form.detail? (form.children.map (·.2))

theorem sketch_of (form : Form Node) :
    (of form).sketch = .vertex form.kind form.detail? (form.children.map sketch) := by
  rw [sketch, fold_of, Form.kind_map, Form.detail?_map, Form.children_map, List.map_map]
  rfl

/-- What a diagram shows of one construct: its kind, its detail and how many children it has. -/
def label (n : Node) : String × Option String × Nat := (n.kind, n.form.detail?, n.children.length)

/-- The constructs of the walk, as far as a diagram shows them. -/
def labels (n : Node) : List (String × Option String × Nat) := n.preorder.map label

theorem labels_of (form : Form Node) :
    (of form).labels = (of form).label :: form.children.flatMap labels := by
  rw [labels, preorder_of, List.map_cons, List.map_flatMap]
  rfl

/-- Trees that are equally many have equal labels only if they look the same one by one. -/
theorem sketches_eq {ns : List Node}
    (ih : ∀ n ∈ ns, ∀ (m : Node) (r s : List (String × Option String × Nat)),
      n.labels ++ r = m.labels ++ s → n.sketch = m.sketch ∧ r = s)
    {ms : List Node} (count : ns.length = ms.length) {r s : List (String × Option String × Nat)}
    (h : ns.flatMap labels ++ r = ms.flatMap labels ++ s) :
    ns.map sketch = ms.map sketch ∧ r = s := by
  induction ns generalizing ms with
  | nil =>
      obtain rfl := List.length_eq_zero_iff.mp count.symm
      exact ⟨rfl, h⟩
  | cons n ns ihs =>
      cases ms with
      | nil => cases count
      | cons m ms =>
          rw [List.flatMap_cons, List.flatMap_cons, List.append_assoc, List.append_assoc] at h
          obtain ⟨first, h⟩ := ih n List.mem_cons_self m _ _ h
          obtain ⟨others, h⟩ := ihs (fun n hn => ih n (List.mem_cons_of_mem _ hn))
            (Nat.succ.inj count) h
          rw [List.map_cons, List.map_cons, first, others]
          exact ⟨rfl, h⟩

/-- A construct says how many children follow it, so that the labels of a tree end where they
have to. -/
theorem sketch_eq_of_labels (n m : Node) (r s : List (String × Option String × Nat))
    (h : n.labels ++ r = m.labels ++ s) : n.sketch = m.sketch ∧ r = s := by
  induction n using Node.induction generalizing m r s with
  | step form ih =>
      obtain ⟨form'⟩ := m
      rw [labels_of, labels_of, List.cons_append, List.cons_append, List.cons.injEq] at h
      obtain ⟨root, h⟩ := h
      obtain ⟨kind, detail, count⟩ : form.kind = form'.kind ∧ form.detail? = form'.detail? ∧
          form.children.length = form'.children.length := by simpa [label, Node.kind, children,
            Node.form] using root
      obtain ⟨children, h⟩ :=
        sketches_eq (fun n hn => ih n (Form.mem_parts_of_mem_children hn)) count h
      rw [sketch_of, sketch_of, kind, detail, children]
      exact ⟨rfl, h⟩

end Node

namespace Diagram.Draws

variable {g : Diagram} {n m : Node}

/-- The labels of a tree can be told from what draws it. -/
theorem labels_eq (h : g.Draws n) : n.labels =
    g.vertices.map fun v => (v.kind, v.detail?, (Diagram.leaving g.edges v.id).length) := by
  have walk : n.preorder = n.layout.map (·.1) := (List.zipIdx_map_fst 0 n.preorder).symm
  rw [Node.labels, walk, h.vertices, List.map_map, List.map_map]
  refine List.map_congr_left fun p hp => ?_
  have count : (Diagram.leaving g.edges p.2).length = p.1.children.length := by
    rw [h.leaving p hp, fan, List.length_map, Node.length_numbered]
  simp only [Function.comp, Vertex.ofNumbered, count]
  rfl

/-- **A diagram determines the labelled tree** that it draws. -/
theorem sketch_eq (h : g.Draws n) (h' : g.Draws m) : n.sketch = m.sketch := by
  have labels : n.labels ++ [] = m.labels ++ [] := by rw [h.labels_eq, h'.labels_eq]
  exact (Node.sketch_eq_of_labels n m [] [] labels).1

end Diagram.Draws

end SqlTree
