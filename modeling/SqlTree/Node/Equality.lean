import SqlTree.Node.Basic

/-!
# SqlTree — Node — equality

Two trees are the same when they have the same shape at the root and the same subtrees in the same
order.
-/

namespace SqlTree.Node

/-- The tree is this one: same shape, and every subtree the same. -/
def same : Node → Node → Bool :=
  fold fun form other =>
    form.shape = other.form.shape &&
      (form.parts.zip other.form.parts).all fun (part, otherPart) => part.2 otherPart

instance : BEq Node := ⟨same⟩

/-- For each tree of a list, the position of the first one that is the same. -/
def firstEqual (nodes : List Node) : List Nat := nodes.map fun n => nodes.findIdx (· == n)

end SqlTree.Node
