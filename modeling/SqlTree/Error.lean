import SqlTree.Dialect

/-!
# SqlTree — errors

What can go wrong while a tree is built or written.  Each error names its cause; the wording of all
of them is `Error.message`.
-/

namespace SqlTree

/-- What a statement lacks to be a whole one. -/
inductive Gap where
  | selectRelation
  | insertRelation | insertValues
  | updateRelation | updateAssignments | updateKey
  | deleteRelation | deleteKey
  deriving DecidableEq, Repr

/-- The statement that has the gap. -/
def Gap.statement : Gap → String
  | .selectRelation => "SELECT"
  | .insertRelation | .insertValues => "INSERT"
  | .updateRelation | .updateAssignments | .updateKey => "UPDATE"
  | .deleteRelation | .deleteKey => "DELETE"

/-- What is missing in it. -/
def Gap.missing : Gap → String
  | .selectRelation => "joins without a FROM relation"
  | .insertRelation | .updateRelation | .deleteRelation => "no target relation"
  | .insertValues => "columns without values"
  | .updateAssignments => "no SET assignments"
  | .updateKey | .deleteKey => "joins, ORDER BY or LIMIT require a key"

/-- The parts of a single SELECT that a compound one does not have. -/
inductive Clause where
  | relation | projections | filter | join | on | usingColumns | groupBy | having
  | distinct | distinctOn
  | window | comment | hints
  deriving DecidableEq, Repr

def Clause.text : Clause → String
  | .relation => "FROM"
  | .projections => "projections"
  | .filter => "WHERE"
  | .join => "JOIN"
  | .on => "ON"
  | .usingColumns => "USING"
  | .groupBy => "GROUP BY"
  | .having => "HAVING"
  | .distinct => "DISTINCT"
  | .distinctOn => "DISTINCT ON"
  | .window => "WINDOW"
  | .comment => "comment"
  | .hints => "optimizer hints"

/-- What a dialect may have no spelling for. -/
inductive Feature where
  | regexp | distinctOn | extract | fullOuterJoin | rawJoinKeyword
  | modifiedOperand | nestedOperand
  deriving DecidableEq, Repr

def Feature.text : Feature → String
  | .regexp => "regular expression match"
  | .distinctOn => "DISTINCT ON"
  | .extract => "EXTRACT"
  | .fullOuterJoin => "FULL OUTER JOIN"
  | .rawJoinKeyword => "keyword for a raw join"
  | .modifiedOperand => "ORDER BY, LIMIT or WITH on a compound select operand"
  | .nestedOperand => "nested compound select on the right of a set operation"

inductive Error where
  /-- The columns of a sub-select do not match the left side of IN. -/
  | columnMismatch (expected found : Nat)
  | constraintWithoutJoin
  | constraintOnRawJoin
  | incomplete (gap : Gap)
  | clauseOfCompound (clause : Clause)
  /-- A parameter without a value; one without a name is called by a question mark. -/
  | unboundParameter (name : String)
  | integerOutOfRange (n : Int)
  | unsupported (feature : Feature) (dialect : Dialect)
  deriving DecidableEq, Repr

def Error.message : Error → String
  | .columnMismatch expected found =>
    s!"IN sub-select must project {expected} column(s), but projects {found}"
  | .constraintWithoutJoin => "cannot add a join constraint: no join has been started"
  | .constraintOnRawJoin => "cannot add a join constraint to a raw string join"
  | .incomplete gap => gap.statement ++ " statement is incomplete: " ++ gap.missing
  | .clauseOfCompound clause =>
    "cannot add " ++ clause.text ++ " to a compound select; alias it as a subquery first"
  | .unboundParameter name => "bind parameter \x60" ++ name ++ "\x60 has no value"
  | .integerOutOfRange n => s!"integer {n} is out of range for a 64-bit SQL integer"
  | .unsupported feature dialect =>
    feature.text ++ " is not supported by the " ++ dialect.name ++ " dialect"

end SqlTree
