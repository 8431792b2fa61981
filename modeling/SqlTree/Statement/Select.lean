import SqlTree.Clause.Join
import SqlTree.Clause.Window

/-!
# SqlTree — Statement — SELECT

A select is a single block, or two selects under a set operator; either carries the clauses that
apply to its result as a whole.
-/

namespace SqlTree

inductive SetQuantifier (α : Type) where
  | all
  | distinct
  | distinctOn (exprs : List α)
  deriving DecidableEq

/-- One block from SELECT to WINDOW.  Its filters are a conjunction, and so are its havings. -/
structure Core (α : Type) where
  projections : List α := []
  filters : List α := []
  groups : List α := []
  havings : List α := []
  source : Source α := {}
  quantifier? : Option (SetQuantifier α) := none
  windows : List (NamedWindow α) := []
  comments : List String := []
  hints : List String := []
  deriving DecidableEq

inductive SetOperator where
  | union | unionAll | intersect | except
  deriving DecidableEq, Repr

def SetOperator.text : SetOperator → String
  | union => "UNION"
  | unionAll => "UNION ALL"
  | intersect => "INTERSECT"
  | except => "EXCEPT"

inductive Lock where
  | forUpdate
  /-- A clause that the caller spells. -/
  | raw (text : String)
  deriving DecidableEq, Repr

/-- A common table expression; the database may be told whether to store its rows. -/
structure Cte (α : Type) where
  name : String
  relation : α
  materialized? : Option Bool := none
  deriving DecidableEq

structure With (α : Type) where
  isRecursive : Bool
  ctes : List (Cte α)
  deriving DecidableEq

/-- The clauses that apply to the result of a select as a whole. -/
structure Modifiers (α : Type) where
  with? : Option (With α) := none
  orders : List α := []
  limit? : Option α := none
  offset? : Option α := none
  lock? : Option Lock := none
  deriving DecidableEq

inductive Select (α : Type) where
  | single (core : Core α) (modifiers : Modifiers α)
  | compound (op : SetOperator) (left right : Select α) (modifiers : Modifiers α)
  deriving DecidableEq

variable {α β : Type}

/-! ### Subtrees -/

def SetQuantifier.map (f : α → β) : SetQuantifier α → SetQuantifier β
  | all => .all
  | distinct => .distinct
  | distinctOn exprs => .distinctOn (exprs.map f)

def SetQuantifier.parts : SetQuantifier α → List α
  | all | distinct => []
  | distinctOn exprs => exprs

def Core.map (f : α → β) (c : Core α) : Core β where
  projections := c.projections.map f
  filters := c.filters.map f
  groups := c.groups.map f
  havings := c.havings.map f
  source := c.source.map f
  quantifier? := c.quantifier?.map (·.map f)
  windows := c.windows.map (·.map f)
  comments := c.comments
  hints := c.hints

/-- The subtrees from the projections to the windows. -/
def Core.children (c : Core α) : List α :=
  c.projections ++ c.source.parts ++ c.filters ++ c.groups ++ c.havings ++
    c.windows.flatMap (·.window.parts)

def Core.parts (c : Core α) : List α :=
  (c.quantifier?.map SetQuantifier.parts).getD [] ++ c.children

def Cte.map (f : α → β) (c : Cte α) : Cte β := ⟨c.name, f c.relation, c.materialized?⟩

def With.map (f : α → β) (w : With α) : With β := ⟨w.isRecursive, w.ctes.map (·.map f)⟩

def Modifiers.map (f : α → β) (m : Modifiers α) : Modifiers β where
  with? := m.with?.map (·.map f)
  orders := m.orders.map f
  limit? := m.limit?.map f
  offset? := m.offset?.map f
  lock? := m.lock?

/-- The relations that stand before the body. -/
def Modifiers.before (m : Modifiers α) : List α :=
  (m.with?.map fun w => w.ctes.map (·.relation)).getD []

/-- The subtrees that stand after the body. -/
def Modifiers.after (m : Modifiers α) : List α := m.orders ++ m.limit?.toList ++ m.offset?.toList

/-- No clause is set.  A WITH clause counts even if it is empty. -/
def Modifiers.isEmpty (m : Modifiers α) : Bool :=
  m.with?.isNone && m.orders.isEmpty && m.limit?.isNone && m.offset?.isNone && m.lock?.isNone

namespace Select

def map (f : α → β) : Select α → Select β
  | single core modifiers => .single (core.map f) (modifiers.map f)
  | compound op left right modifiers =>
    .compound op (left.map f) (right.map f) (modifiers.map f)

def parts : Select α → List α
  | single core modifiers => modifiers.before ++ core.parts ++ modifiers.after
  | compound _ left right modifiers =>
    modifiers.before ++ left.parts ++ right.parts ++ modifiers.after

/-- The subtrees that a reader of the tree is shown: all but those of DISTINCT ON. -/
def children : Select α → List α
  | single core modifiers => modifiers.before ++ core.children ++ modifiers.after
  | compound _ left right modifiers =>
    modifiers.before ++ left.children ++ right.children ++ modifiers.after

/-! ### Parts of a select -/

/-- The select of nothing in particular. -/
def empty : Select α := single {} {}

/-- The block of a select that is not compound. -/
def core? : Select α → Option (Core α)
  | single core _ => some core
  | compound .. => none

def modifiers : Select α → Modifiers α
  | single _ m | compound _ _ _ m => m

def isModified (s : Select α) : Bool := !s.modifiers.isEmpty

/-- The select with its block changed; a compound one stays as it is. -/
def mapCore (f : Core α → Core α) : Select α → Select α
  | single core m => single (f core) m
  | compound op left right m => compound op left right m

def mapModifiers (f : Modifiers α → Modifiers α) : Select α → Select α
  | single core m => single core (f m)
  | compound op left right m => compound op left right (f m)

/-- The block that stands first in the text. -/
def firstCore : Select α → Core α
  | single core _ => core
  | compound _ left _ _ => left.firstCore

end Select

end SqlTree
