import SqlTree.Sql.Select

/-!
# SqlTree — Sql — INSERT, UPDATE and DELETE

How statements that change rows are written.  Where the rows are more than a filter of one relation,
the statement is restricted to the keys that a sub-select finds: the sub-select has the source, the
filters, the order and the limits, and the statement itself has none of them.  One dialect writes
most of these statements in place.
-/

namespace SqlTree

open Draft

/-! ### INSERT -/

/-- Rows of values, each in parentheses. -/
def valuesDraft (rows : List (List Part)) : Draft :=
  fixed "VALUES " ++ sepBy ", " (rows.map fun row => (Part.list row).parens)

/-- A row of defaults only. -/
def defaultsDraft : Dialect → Draft
  | .mysql => fixed " " ++ nothing.parens ++ fixed " VALUES " ++ nothing.parens
  | .generic | .postgresql | .sqlite => fixed " DEFAULT VALUES"

/-- What is inserted into the columns. -/
def InsertSource.draft (d : Dialect) : InsertSource Part → Draft
  | values rows => fixed " " ++ valuesDraft rows
  | select s => fixed " " ++ s.draft d

def Insert.draft (d : Dialect) (s : Insert Part) : Draft :=
  match s.table? with
  | none => fail (.incomplete .insertRelation)
  | some t =>
    let columns :=
      if s.columns.isEmpty then nothing
      else fixed " " ++ (sepBy ", " (s.columns.map fun c => ident c.name)).parens
    fixed "INSERT INTO " ++ ident t.name ++ columns ++
      match s.source? with
      | some source => source.draft d
      | none => if s.columns.isEmpty then defaultsDraft d else fail (.incomplete .insertValues)

/-! ### The rows of UPDATE and DELETE -/

/-- The select of the keys of the rows. -/
def Rows.keys {α : Type} (r : Rows α) (key : α) : Select α :=
  .single { projections := [key], filters := r.filters, source := r.source }
    { orders := r.orders, limit? := r.limit?, offset? := r.offset? }

/-- The name of the derived table of keys. -/
def keyTable : String := "__arel_temp"

/-- The key as a column of the derived table. -/
def wrappedKey (key : Part) : Part :=
  match key.node with
  | .of (.column c) => (.of (.unqualified c), fun _ => ident c.name)
  | .of _ => key

/-- The same keys through a derived table, for a dialect that must not read the table it changes. -/
def wrappedKeys (d : Dialect) (key : Part) (keys : Select Part) : Select Part :=
  let relation : Part :=
    (.of (.tableAlias (.of (.select (keys.map Part.node))) keyTable),
      fun _ => (keys.draft d).parens ++ fixed " " ++ ident keyTable)
  .single { projections := [wrappedKey key], source := { relation? := some relation } } {}

/-- The condition that the key of a row is among those found. -/
def Rows.restriction (d : Dialect) (r : Rows Part) (key : Part) : Draft :=
  let keys := r.keys key
  let keys :=
    match d with
    | .mysql => wrappedKeys d key keys
    | .generic | .postgresql | .sqlite => keys
  key.operand Strength.compared ++ fixed " IN " ++ (keys.draft d).parens

/-- The statement, begun as given, with its rows restricted: by the filters themselves, or by the
keys where the filters do not say it all. -/
def Rows.restrict (d : Dialect) (missingKey : Gap) (r : Rows Part) (statement : Draft) : Draft :=
  if r.needsKey then
    match r.key? with
    | none => fail (.incomplete missingKey)
    | some key => statement ++ fixed " WHERE " ++ r.restriction d key
  else statement ++ clause " WHERE " " AND " (Part.conjuncts r.filters)

/-- The dialect has a spelling for the rows as they are: there is no offset, and joins do not meet
an order or a limit. -/
def Rows.isNative {α : Type} (d : Dialect) (r : Rows α) : Bool :=
  match d with
  | .mysql =>
    r.offset?.isNone && !(!r.source.joins.isEmpty && (!r.orders.isEmpty || r.limit?.isSome))
  | .generic | .postgresql | .sqlite => false

/-- The clauses of a statement that is written in place. -/
def Rows.inPlace (d : Dialect) (r : Rows Part) : Draft :=
  clause " WHERE " " AND " (Part.conjuncts r.filters) ++ ordersDraft r.orders ++
    limitDraft d r.limit? none

/-! ### UPDATE -/

def Update.draft (d : Dialect) (s : Update Part) : Draft :=
  match s.rows.source.relation? with
  | none => fail (.incomplete .updateRelation)
  | some relation =>
    let assignments := fixed " SET " ++ Part.list s.assignments
    if s.assignments.isEmpty then fail (.incomplete .updateAssignments)
    else if s.rows.isNative d then
      fixed "UPDATE " ++ s.rows.source.draft d ++ assignments ++ s.rows.inPlace d
    else s.rows.restrict d .updateKey (fixed "UPDATE " ++ relation.item ++ assignments)

/-! ### DELETE -/

/-- The relation whose rows are deleted, by the name it goes by in the statement. -/
def deleteTarget (relation : Part) : Draft :=
  match relation.node with
  | .of (.table t) => ident t.qualifier
  | .of _ => relation.item

def Delete.draft (d : Dialect) (s : Delete Part) : Draft :=
  match s.rows.source.relation? with
  | none => fail (.incomplete .deleteRelation)
  | some relation =>
    if s.rows.isNative d then
      let target := onlyIf (!s.rows.source.joins.isEmpty) (deleteTarget relation ++ fixed " ")
      fixed "DELETE " ++ target ++ fixed "FROM " ++ s.rows.source.draft d ++ s.rows.inPlace d
    else s.rows.restrict d .deleteKey (fixed "DELETE FROM " ++ relation.item)

end SqlTree
