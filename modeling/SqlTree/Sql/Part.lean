import SqlTree.Node.Basic
import SqlTree.Sql.Draft

/-!
# SqlTree — Sql — parts

A construct is written from its subtrees, each of which comes with its own draft.  What a draft
looks like depends on the place: most places take the subtree as it is written anywhere, an operand
is put in parentheses where it binds too loosely, and a few places look inside the subtree.
-/

namespace SqlTree

/-- The places that see more of a tree than its draft. -/
inductive Place where
  /-- Anywhere: a select is in parentheses. -/
  | item
  /-- A statement by itself. -/
  | statement
  /-- A grouping element, whose list stands in the parentheses of the element. -/
  | element
  /-- The two bounds of BETWEEN. -/
  | bounds
  deriving DecidableEq, Repr

/-- A subtree and what is written for it at each place. -/
abbrev Part := Node × (Place → Draft)

namespace Part

open Draft

def node (p : Part) : Node := p.1

def item (p : Part) : Draft := p.2 .item

def element (p : Part) : Draft := p.2 .element

/-- An operand where nothing looser than `least` may stand bare. -/
def operand (least : Nat) (p : Part) : Draft :=
  if p.node.strength < least then p.item.parens else p.item

/-- In parentheses, but not in two pairs of them. -/
def enclosed (p : Part) : Draft :=
  if p.node.isGrouping || p.node.isSelect then p.item else p.item.parens

/-- The right side of BETWEEN. -/
def bounds (p : Part) : Draft :=
  match p.node with
  | .of (.and [_, _]) => p.2 .bounds
  | .of _ => p.operand Strength.atom

/-- The right side of IN. -/
def members (p : Part) : Draft :=
  match p.node with
  | .of (.list _) => p.item.parens
  | .of _ => p.operand Strength.atom

/-- The list on the right of IN has no members. -/
def isEmptyList (p : Part) : Bool :=
  match p.node with
  | .of (.list []) => true
  | .of _ => false

/-- The left side of an assignment: a column goes without its table. -/
def target (p : Part) : Draft :=
  match p.node with
  | .of (.column c) => ident c.name
  | .of _ => p.item

/-- An item of a SELECT list: the implicit name of a call shows here and nowhere else. -/
def projection (p : Part) : Draft :=
  match p.node with
  | .of (.call ⟨_, _, _, some ⟨name, true⟩⟩) => p.item ++ fixed " AS " ++ verbatim name
  | .of _ => p.item

/-- Items with commas between. -/
def list (ps : List Part) : Draft := sepBy ", " (ps.map item)

/-- The operands of a conjunction. -/
def conjuncts (ps : List Part) : List Draft := ps.map (operand Strength.conjunction)

end Part

end SqlTree
