import SqlTree.Builder.Source

/-!
# SqlTree — Builder — INSERT, UPDATE and DELETE

Statements that change rows are built clause by clause.  A value set against a column remembers it.
-/

namespace SqlTree

/-! ### INSERT -/

namespace Insert

def into (t : Table) (s : Insert Node) : Insert Node := { s with table? := some t }

def addColumns (columns : List Column) (s : Insert Node) : Insert Node :=
  { s with columns := s.columns ++ columns }

/-- The values of a row, each set against its column; those beyond the last column stand alone. -/
def row : List Column → List Operand → List Node
  | _, [] => []
  | [], x :: xs => x.toNode :: row [] xs
  | c :: cs, x :: xs => x.against (.column c) :: row cs xs

/-- One more row of values, in place of any select. -/
def addRow (values : List Operand) (s : Insert Node) : Insert Node :=
  let values := row s.columns values
  let rows :=
    match s.source? with
    | some (.values rows) => rows ++ [values]
    | some (.select _) | none => [values]
  { s with source? := some (.values rows) }

def addRows (rows : List (List Operand)) (s : Insert Node) : Insert Node :=
  rows.foldl (fun s values => s.addRow values) s

/-- Columns and their values: the columns are added to those there are, and the values are the only
row.  The table of the first column is the target, if there is none. -/
def assign (pairs : List (Column × Operand)) (s : Insert Node) : Insert Node :=
  let values := pairs.map fun (c, x) => x.against (.column c)
  { table? := s.table?.or (pairs.head?.map (·.1.table))
    columns := s.columns ++ pairs.map (·.1)
    source? := if values.isEmpty then s.source? else some (.values [values]) }

/-- The rows of a select, in place of any values. -/
def fromSelect (query : Select Node) (s : Insert Node) : Insert Node :=
  { s with source? := some (.select query) }

end Insert

/-! ### The rows of UPDATE and DELETE -/

namespace Rows

/-- The relation whose rows change. -/
def target (relation : Node) (r : Rows Node) : Rows Node :=
  { r with source := { r.source with relation? := some relation } }

def join (kind : JoinKind) (relation : Node) (r : Rows Node) : Rows Node :=
  { r with source := r.source.join kind relation }

def on (predicate : Node) (r : Rows Node) : Except Error (Rows Node) := do
  let source ← r.source.on predicate
  return { r with source }

def filter (predicate : Node) (r : Rows Node) : Rows Node :=
  { r with filters := r.filters ++ [predicate] }

def order (exprs : List Node) (r : Rows Node) : Rows Node := { r with orders := r.orders ++ exprs }

def take (n : Nat) (r : Rows Node) : Rows Node := { r with limit? := some (.rowLimit n) }

def skip (n : Nat) (r : Rows Node) : Rows Node := { r with offset? := some (.rowLimit n) }

def key (expr : Node) (r : Rows Node) : Rows Node := { r with key? := some expr }

end Rows

/-! ### UPDATE -/

namespace Update

/-- New values of columns, after those there are. -/
def assign (pairs : List (Column × Operand)) (s : Update Node) : Update Node :=
  let assignments := pairs.map fun (c, x) =>
    Node.binary .assignment (.of (.unqualified c)) (x.against (.column c))
  { s with assignments := s.assignments ++ assignments }

/-- An assignment that the caller spells. -/
def assignRaw (text : String) (s : Update Node) : Update Node :=
  { s with assignments := s.assignments ++ [.sql text] }

end Update

end SqlTree
