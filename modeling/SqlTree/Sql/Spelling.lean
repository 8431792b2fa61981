import SqlTree.Clause.Join
import SqlTree.Error
import SqlTree.Operator

/-!
# SqlTree — Sql — spellings

The words that dialects spell in their own ways, and those that some of them have no word for.
-/

namespace SqlTree.Dialect

/-- A binary operator written between its operands. -/
def operatorText (d : Dialect) (op : BinaryOperator) : String :=
  match d, op with
  | postgresql, .bitwiseXor => "#"
  | _, _ => op.text

/-- The operator that matches a pattern.  Where letters are told apart by default the other way has
an operator of its own; where they are not, it has a keyword. -/
def likeText (d : Dialect) (caseSensitive negated : Bool) : String :=
  match d, caseSensitive, negated with
  | postgresql, false, false => "ILIKE"
  | postgresql, false, true => "NOT ILIKE"
  | mysql, true, false => "LIKE BINARY"
  | mysql, true, true => "NOT LIKE BINARY"
  | _, _, false => "LIKE"
  | _, _, true => "NOT LIKE"

/-- The operator that matches a regular expression. -/
def regexpText (d : Dialect) (caseSensitive negated : Bool) : Except Error String :=
  match d, caseSensitive, negated with
  | generic, _, _ => .error (.unsupported .regexp generic)
  | postgresql, true, false => .ok "~"
  | postgresql, false, false => .ok "~*"
  | postgresql, true, true => .ok "!~"
  | postgresql, false, true => .ok "!~*"
  | mysql, _, false | sqlite, _, false => .ok "REGEXP"
  | mysql, _, true | sqlite, _, true => .ok "NOT REGEXP"

/-- The keyword before a joined relation. -/
def joinText (d : Dialect) (kind : JoinKind) : Except Error String :=
  match d, kind with
  | mysql, .fullOuter => .error (.unsupported .fullOuterJoin mysql)
  | _, _ =>
    match kind.keyword? with
    | some keyword => .ok keyword
    | none => .error (.unsupported .rawJoinKeyword d)

/-- The row count that stands for no limit, where a dialect allows an offset only after a limit. -/
def noLimit? : Dialect → Option String
  | mysql => some "18446744073709551615"
  | sqlite => some "-1"
  | generic | postgresql => none

end SqlTree.Dialect
