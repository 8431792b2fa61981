import SqlTree.Node.Fold
import SqlTree.Sql.Mutation

/-!
# SqlTree — Sql — trees

A tree is written from the bottom up, by the rule for each construct.

* `Node.draft_of` says that the draft of a tree is what the rule for its root makes of the drafts of
  its subtrees.
-/

namespace SqlTree

open Draft

/-- What is written for a construct anywhere, given its parts. -/
def Form.item (d : Dialect) : Form Part → Draft
  | table t => t.draft
  | tableAlias relation name => relation.operand Strength.atom ++ fixed " " ++ ident name
  | column c => c.draft
  | unqualified c => ident c.name
  | sql text => verbatim text
  | quoted value | casted value _ => value.draft
  | param bind => slot bind
  | bool b => fixed (d.boolText b)
  | star => fixed "*"
  | list items => Part.list items
  | unary op operand => op.draft d operand
  | binary op left right => op.draft d left right
  | and items => conjunction items
  | matching left right escape? sensitive negated =>
    matchingDraft d left right escape? sensitive negated
  | regexp left right sensitive negated => regexpDraft d left right sensitive negated
  | call c => c.draft
  | extract expr field => extractDraft d expr field
  | cast expr typeName => castDraft expr typeName
  | cases c => c.draft
  | join j => j.draft d
  | sortKey k => k.draft d
  | windowed expr w => overDraft expr w
  | window w => w.draft
  | namedWindow w => w.draft
  | cte c => c.draft
  | values rows => valuesDraft rows
  | select s => (s.draft d).parens
  | insert s => s.draft d
  | update s => s.draft d
  | delete s => s.draft d

/-- What is written for a construct at each place. -/
def Form.draft (d : Dialect) : Form Part → Place → Draft
  | select s, .statement => s.draft d
  | unary .grouping inner, .element => inner.item
  | and [low, high], .bounds => boundsDraft low high
  | form, _ => form.item d

namespace Node

/-- What is written for a tree at each place. -/
def draft (d : Dialect) : Node → Place → Draft := fold (Form.draft d)

/-- A subtree as a part. -/
def part (d : Dialect) (n : Node) : Part := (n, n.draft d)

/-- **The draft of a tree**: the rule for its root, applied to its subtrees as parts. -/
theorem draft_of (d : Dialect) (form : Form Node) :
    (of form).draft d = (form.map (part d)).draft d :=
  fold_of (Form.draft d) form

end Node

end SqlTree
