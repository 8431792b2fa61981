import SqlTree.Sql.Comment
import SqlTree.Sql.Expression

/-!
# SqlTree — Sql — SELECT

How a select is written.  The operands of a set operator are in parentheses, except that an operand
with the same operator joins the chain where the grouping does not matter.  One dialect allows no
parentheses there: it has to take a flat chain from left to right, or refuse.
-/

namespace SqlTree

open Draft

/-! ### What a select reads from -/

def JoinConstraint.draft : JoinConstraint Part → Draft
  | .on predicate => fixed " ON " ++ predicate.item
  | .columns names => fixed " USING " ++ (sepBy ", " (names.map ident)).parens

/-- A join; a raw one is all in its relation. -/
def Join.draft (d : Dialect) (j : Join Part) : Draft :=
  match j.kind with
  | .raw => j.relation.item
  | kind =>
    ofWord (d.joinText kind) ++ fixed " " ++ j.relation.item ++
      (j.constraint?.map JoinConstraint.draft).getD nothing

def Source.draft (d : Dialect) (s : Source Part) : Draft :=
  sepBy " " (s.relation?.toList.map Part.item ++ s.joins.map (Join.draft d))

/-! ### One block -/

/-- Hints to the optimizer, all in one comment. -/
def hintsDraft : List String → Draft
  | [] => nothing
  | hints => fixed " " ++ remark true (" ".intercalate (hints.map Comment.clean))

def SetQuantifier.draft (d : Dialect) : SetQuantifier Part → Draft
  | all => fixed " ALL"
  | distinct => fixed " DISTINCT"
  | distinctOn exprs =>
    match d with
    | .postgresql => fixed " DISTINCT ON " ++ (Part.list exprs).parens
    | .generic | .mysql | .sqlite => fail (.unsupported .distinctOn d)

/-- The SELECT list, which is everything where nothing is asked for. -/
def projectionsDraft : List Part → Draft
  | [] => fixed "*"
  | ps => sepBy ", " (ps.map Part.projection)

/-- FROM and what follows it, or nothing without a source; joins alone are no source. -/
def fromDraft (d : Dialect) (s : Source Part) : Draft :=
  if s.isEmpty then nothing
  else if s.relation?.isNone then fail (.incomplete .selectRelation)
  else fixed " FROM " ++ s.draft d

def Core.draft (d : Dialect) (c : Core Part) : Draft :=
  fixed "SELECT" ++ hintsDraft c.hints ++
    (c.quantifier?.map (SetQuantifier.draft d)).getD nothing ++
    fixed " " ++ projectionsDraft c.projections ++
    fromDraft d c.source ++
    clause " WHERE " " AND " (Part.conjuncts c.filters) ++
    clause " GROUP BY " ", " (c.groups.map Part.item) ++
    clause " HAVING " " AND " (Part.conjuncts c.havings) ++
    clause " WINDOW " ", " (c.windows.map NamedWindow.draft) ++
    inOrder (c.comments.map fun text => fixed " " ++ remark false (Comment.clean text))

/-! ### The clauses around -/

def Cte.draft (c : Cte Part) : Draft :=
  let storage :=
    match c.materialized? with
    | some true => fixed "MATERIALIZED "
    | some false => fixed "NOT MATERIALIZED "
    | none => nothing
  ident c.name ++ fixed " AS " ++ storage ++ c.relation.operand Strength.atom

def With.draft (w : With Part) : Draft :=
  fixed (if w.isRecursive then "WITH RECURSIVE " else "WITH ") ++
    sepBy ", " (w.ctes.map Cte.draft) ++ fixed " "

def ordersDraft (orders : List Part) : Draft := clause " ORDER BY " ", " (orders.map Part.item)

/-- Limit and offset.  A dialect that takes an offset only after a limit gets one without effect. -/
def limitDraft (d : Dialect) (limit? offset? : Option Part) : Draft :=
  let limit :=
    match limit?, offset?, d.noLimit? with
    | some n, _, _ => fixed " LIMIT " ++ n.item
    | none, some _, some rows => fixed (" LIMIT " ++ rows)
    | none, _, _ => nothing
  limit ++ optional " OFFSET " offset?

/-- A lock on the rows read, in a dialect that has locks. -/
def Lock.draft (d : Dialect) (l : Lock) : Draft :=
  match d, l with
  | .sqlite, _ => nothing
  | _, forUpdate => fixed " FOR UPDATE"
  | _, raw text => fixed " " ++ verbatim text

/-- The body of a select between the clauses of the whole. -/
def Modifiers.around (d : Dialect) (m : Modifiers Part) (body : Draft) : Draft :=
  (m.with?.map With.draft).getD nothing ++ body ++ ordersDraft m.orders ++
    limitDraft d m.limit? m.offset? ++ (m.lock?.map (Lock.draft d)).getD nothing

/-! ### Set operations -/

/-- An operand of the operator may join its chain without parentheses: it has the same operator and
no clause of its own, and the order of evaluation stays or does not matter. -/
def Select.chains (op : SetOperator) (isLeft : Bool) : Select Part → Bool
  | single .. => false
  | compound inner _ _ m => m.isEmpty && inner == op && (isLeft || op != .except)

/-- An operand of a set operator, given the draft of it as a statement. -/
def operandDraft (d : Dialect) (op : SetOperator) (isLeft : Bool) (s : Select Part)
    (statement : Draft) : Draft :=
  match d with
  | .sqlite =>
    if s.isModified then fail (.unsupported .modifiedOperand d)
    else if s.core?.isNone && !isLeft then fail (.unsupported .nestedOperand d)
    else statement
  | .generic | .postgresql | .mysql => if s.chains op isLeft then statement else statement.parens

/-- A select as a statement. -/
def Select.draft (d : Dialect) : Select Part → Draft
  | single core m => m.around d (core.draft d)
  | compound op left right m =>
    m.around d <|
      operandDraft d op true left (left.draft d) ++ fixed (" " ++ op.text ++ " ") ++
        operandDraft d op false right (right.draft d)

end SqlTree
