import SqlTree.Statement.Select
import SqlTree.Table

/-!
# SqlTree — Statement — INSERT, UPDATE and DELETE
-/

namespace SqlTree

/-- Where inserted rows come from. -/
inductive InsertSource (α : Type) where
  | values (rows : List (List α))
  | select (s : Select α)
  deriving DecidableEq

structure Insert (α : Type) where
  table? : Option Table := none
  columns : List Column := []
  source? : Option (InsertSource α) := none
  deriving DecidableEq

/-- The rows that a statement changes.  Where a dialect cannot restrict the statement itself that
far, the key tells the rows apart. -/
structure Rows (α : Type) where
  source : Source α := {}
  filters : List α := []
  orders : List α := []
  limit? : Option α := none
  offset? : Option α := none
  key? : Option α := none
  deriving DecidableEq

structure Update (α : Type) where
  rows : Rows α := {}
  assignments : List α := []
  deriving DecidableEq

structure Delete (α : Type) where
  rows : Rows α := {}
  deriving DecidableEq

variable {α β : Type}

def InsertSource.map (f : α → β) : InsertSource α → InsertSource β
  | values rows => .values (rows.map (·.map f))
  | select s => .select (s.map f)

def InsertSource.parts : InsertSource α → List α
  | values rows => rows.flatten
  | select s => s.parts

/-- The subtrees that a reader of the tree is shown. -/
def InsertSource.children : InsertSource α → List α
  | values rows => rows.flatten
  | select s => s.children

def Insert.map (f : α → β) (s : Insert α) : Insert β :=
  ⟨s.table?, s.columns, s.source?.map (·.map f)⟩

def Rows.map (f : α → β) (r : Rows α) : Rows β where
  source := r.source.map f
  filters := r.filters.map f
  orders := r.orders.map f
  limit? := r.limit?.map f
  offset? := r.offset?.map f
  key? := r.key?.map f

/-- The subtrees after the source and the assignments, without the key. -/
def Rows.after (r : Rows α) : List α := r.filters ++ r.orders ++ r.limit?.toList ++ r.offset?.toList

/-- The rows are more than a filter of one relation. -/
def Rows.needsKey (r : Rows α) : Bool :=
  !r.source.joins.isEmpty || !r.orders.isEmpty || r.limit?.isSome || r.offset?.isSome

def Update.map (f : α → β) (s : Update α) : Update β := ⟨s.rows.map f, s.assignments.map f⟩

def Update.children (s : Update α) : List α := s.rows.source.parts ++ s.assignments ++ s.rows.after

def Delete.map (f : α → β) (s : Delete α) : Delete β := ⟨s.rows.map f⟩

def Delete.children (s : Delete α) : List α := s.rows.source.parts ++ s.rows.after

end SqlTree
