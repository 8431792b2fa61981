import SqlTree.Expr.Operand

/-!
# SqlTree — Expr — functions, names and sort keys
-/

namespace SqlTree.Node

/-! ### Functions -/

/-- An aggregate over one expression.  Over a column it has an implicit name. -/
def aggregate (kind : FunctionKind) (distinct : Bool) (expr : Node) : Node :=
  let alias? :=
    match expr with
    | of (.column c) => implicitAlias kind c
    | of _ => none
  of (.call ⟨kind, [expr], distinct, alias?⟩)

/-- A function by its name. -/
def function (name : String) (arguments : List Node) : Node :=
  of (.call ⟨.named name, arguments, false, none⟩)

/-- The test whether a select has rows. -/
def existsIn (s : Select Node) : Node := of (.call ⟨.exists, [of (.select s)], false, none⟩)

/-! ### Names -/

/-- The tree under a name.  A call takes the name as its own. -/
def named (name : String) : Node → Node
  | of (.call c) => of (.call (c.named name))
  | n => binary .named n (sql name)

/-! ### Sort keys -/

def sortedBy (direction : Direction) (n : Node) : Node := of (.sortKey ⟨n, direction, none⟩)

/-- The sort key with its nulls at the given end; what is no sort key yet ascends. -/
def withNulls (nulls : NullsPlacement) : Node → Node
  | of (.sortKey k) => of (.sortKey ⟨k.expr, k.direction, some nulls⟩)
  | n => of (.sortKey ⟨n, .asc, some nulls⟩)

/-- The opposite sort key; what is no sort key yet descends. -/
def reverse : Node → Node
  | of (.sortKey k) => of (.sortKey k.reverse)
  | n => n.sortedBy .desc

end SqlTree.Node
