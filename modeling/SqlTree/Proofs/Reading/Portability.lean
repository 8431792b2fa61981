import SqlTree.Proofs.Writing.Slots.Node

/-!
# SqlTree — Proofs — the same values for every dialect

Whoever changes the dialect keeps the values: a tree that is compiled for two dialects has the same
slots in the same order in both queries, since both are the slots of the tree (`Node.slots`).

* `Node.binds_eq`: two queries of one tree have the same slots, in MySQL if the tree has only plain
  constructs.
-/

namespace SqlTree.Node

/-- No construct in the tree has a way of its own to be written in MySQL: no sort key says where the
rows without a value go, and no UPDATE or DELETE has joins, orders, a limit or an offset. -/
def IsPlain (n : Node) : Prop := ∀ m ∈ n.subtrees, m.form.isPlain = true

instance (n : Node) : Decidable n.IsPlain := inferInstanceAs (Decidable (∀ m ∈ n.subtrees, _))

variable {n : Node} {d d' : Dialect} {q q' : Query}

/-- A query has the slots of its tree. -/
theorem binds_of_compile (plain : d = .mysql → n.IsPlain) (h : n.compile d = .ok q) :
    q.binds = n.slots := by
  have written := n.draft_writes d plain .statement
  rw [compile, Draft.compile] at h
  split at h
  · rename_i whole
    rw [← Except.ok.inj h]
    exact written whole
  · cases h

/-- **The slots do not depend on the dialect.**  If a tree is compiled for two dialects, the queries
have the same names and values in the same order. -/
theorem binds_eq (plain : d = .mysql ∨ d' = .mysql → n.IsPlain) (h : n.compile d = .ok q)
    (h' : n.compile d' = .ok q') : q.binds = q'.binds := by
  rw [binds_of_compile (fun hd => plain (.inl hd)) h,
    binds_of_compile (fun hd => plain (.inr hd)) h']

/-- A concatenation is a call in MySQL. -/
theorem binds_eq_of_concat :
    let greeting := of (.binary .concat (of (.quoted (.text "Hello, ")))
      (of (.param ⟨some "name", none⟩)))
    ∃ q q', greeting.compile .postgresql = .ok q ∧ greeting.compile .mysql = .ok q' ∧
      q.sql = "$1 || $2" ∧ q'.sql = "CONCAT(?, ?)" ∧ q.binds = q'.binds := by
  intro greeting
  have plain : greeting.IsPlain := by decide
  have compiled : greeting.compile .postgresql = .ok _ := rfl
  have compiled' : greeting.compile .mysql = .ok _ := rfl
  exact ⟨_, _, compiled, compiled', rfl, rfl, binds_eq (fun _ => plain) compiled compiled'⟩

end SqlTree.Node
