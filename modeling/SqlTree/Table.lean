/-!
# SqlTree — tables and columns

A table may go by another name in one statement; its columns are then qualified by that name.
-/

namespace SqlTree

structure Table where
  name : String
  /-- The name the table goes by in the statement. -/
  alias? : Option String := none
  deriving DecidableEq, Repr

/-- The name that qualifies the columns of the table. -/
def Table.qualifier (t : Table) : String := t.alias?.getD t.name

structure Column where
  table : Table
  name : String
  deriving DecidableEq, Repr

/-- The column called by a star stands for all columns of its table. -/
def Column.isStar (c : Column) : Bool := c.name == "*"

def Table.column (t : Table) (name : String) : Column := ⟨t, name⟩

def Table.star (t : Table) : Column := t.column "*"

end SqlTree
