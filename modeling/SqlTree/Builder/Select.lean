import SqlTree.Builder.Source
import SqlTree.Expr.Function
import SqlTree.Node.Equality

/-!
# SqlTree — Builder — SELECT

A select under construction.  A compound select has no block of its own: a clause of a single block
that is put to it leaves the select as it was, and the first such attempt is remembered and reported
when the select is written.
-/

namespace SqlTree

structure SelectBuilder where
  select : Select Node
  /-- The first clause that could not be put to a compound select. -/
  fault? : Option Error

namespace SelectBuilder

def empty : SelectBuilder := ⟨.empty, none⟩

instance : BEq SelectBuilder where
  beq a b := Node.of (.select a.select) == Node.of (.select b.select) && a.fault? == b.fault?

/-! ### Clauses of one block -/

/-- A change of the block, made for the given clause. -/
def edit (clause : Clause) (f : Core Node → Core Node) (b : SelectBuilder) : SelectBuilder :=
  match b.select with
  | .single core m => { b with select := .single (f core) m }
  | .compound .. => { b with fault? := b.fault?.or (some (.clauseOfCompound clause)) }

def fromRelation (relation : Node) : SelectBuilder → SelectBuilder :=
  edit .relation fun c => { c with source := c.source.push relation }

def project (projections : List Node) : SelectBuilder → SelectBuilder :=
  edit .projections fun c => { c with projections := c.projections ++ projections }

def filter (predicate : Node) : SelectBuilder → SelectBuilder :=
  edit .filter fun c => { c with filters := c.filters ++ [predicate] }

def join (kind : JoinKind) (relation : Node) : SelectBuilder → SelectBuilder :=
  edit .join fun c => { c with source := c.source.join kind relation }

def group (exprs : List Node) : SelectBuilder → SelectBuilder :=
  edit .groupBy fun c => { c with groups := c.groups ++ exprs }

def having (predicate : Node) : SelectBuilder → SelectBuilder :=
  edit .having fun c => { c with havings := c.havings ++ [predicate] }

def distinct : SelectBuilder → SelectBuilder :=
  edit .distinct fun c => { c with quantifier? := some .distinct }

def distinctOn (exprs : List Node) : SelectBuilder → SelectBuilder :=
  edit .distinctOn fun c => { c with quantifier? := some (.distinctOn exprs) }

def window (w : NamedWindow Node) : SelectBuilder → SelectBuilder :=
  edit .window fun c => { c with windows := c.windows ++ [w] }

def comment (text : String) : SelectBuilder → SelectBuilder :=
  edit .comment fun c => { c with comments := c.comments ++ [text] }

def hints (texts : List String) : SelectBuilder → SelectBuilder :=
  edit .hints fun c => { c with hints := c.hints ++ texts }

/-- A change of the last join, which fails at once where it cannot be made. -/
def constrain (clause : Clause) (f : Source Node → Except Error (Source Node))
    (b : SelectBuilder) : Except Error SelectBuilder :=
  match b.select with
  | .single core m => do
    let source ← f core.source
    return { b with select := .single { core with source } m }
  | .compound .. => .error (.clauseOfCompound clause)

def on (predicate : Node) : SelectBuilder → Except Error SelectBuilder :=
  constrain .on (Source.on predicate)

def usingColumns (names : List String) : SelectBuilder → Except Error SelectBuilder :=
  constrain .usingColumns (Source.usingColumns names)

/-! ### Clauses of the whole -/

def modify (f : Modifiers Node → Modifiers Node) (b : SelectBuilder) : SelectBuilder :=
  { b with select := b.select.mapModifiers f }

def order (exprs : List Node) : SelectBuilder → SelectBuilder :=
  modify fun m => { m with orders := m.orders ++ exprs }

def take (n : Nat) : SelectBuilder → SelectBuilder :=
  modify fun m => { m with limit? := some (.rowLimit n) }

def skip (n : Nat) : SelectBuilder → SelectBuilder :=
  modify fun m => { m with offset? := some (.rowLimit n) }

def lock (l : Lock) : SelectBuilder → SelectBuilder :=
  modify fun m => { m with lock? := some l }

/-- More common table expressions.  Once recursive, the clause stays so. -/
def addCtes (isRecursive : Bool) (ctes : List (Cte Node)) : SelectBuilder → SelectBuilder :=
  modify fun m =>
    let earlier := m.with?.getD ⟨false, []⟩
    { m with with? := some ⟨earlier.isRecursive || isRecursive, earlier.ctes ++ ctes⟩ }

/-! ### Selects from selects -/

/-- Both selects under a set operator, with the fault of the left one or else of the right one. -/
def combine (op : SetOperator) (left right : SelectBuilder) : SelectBuilder :=
  ⟨.compound op left.select right.select {}, left.fault?.or right.fault?⟩

/-- The select as a relation under a name. -/
def named (name : String) (b : SelectBuilder) : Node :=
  .of (.tableAlias (.of (.select b.select)) name)

/-- The select as a relation that may refer to those before it. -/
def lateral (name? : Option String) (b : SelectBuilder) : Node :=
  match name? with
  | some name => .unary .lateral (b.named name)
  | none => .unary .lateral (.of (.select b.select))

/-- The conjunction of filters of a select that is not compound. -/
def filters (b : SelectBuilder) : List Node := (b.select.core?.map (·.filters)).getD []

def projections (b : SelectBuilder) : List Node := (b.select.core?.map (·.projections)).getD []

end SelectBuilder

/-- The select of everything from a table. -/
def Table.select (t : Table) : SelectBuilder := SelectBuilder.empty.fromRelation (.of (.table t))

end SqlTree
