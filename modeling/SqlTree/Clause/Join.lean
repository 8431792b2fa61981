/-!
# SqlTree — Clause — joins

The relation a statement reads from, with the joins that hang off it in the order they were added.
Here and in the other clauses `α` is the type of the subtrees: a clause is one layer of a statement.
`map` changes the subtrees and keeps the rest; `parts` lists them.
-/

namespace SqlTree

inductive JoinKind where
  | inner | leftOuter | rightOuter | fullOuter | cross
  /-- A join that the caller spells out as a whole. -/
  | raw
  deriving DecidableEq, Repr

/-- The keyword before the joined relation; a raw join brings its own. -/
def JoinKind.keyword? : JoinKind → Option String
  | inner => some "INNER JOIN"
  | leftOuter => some "LEFT OUTER JOIN"
  | rightOuter => some "RIGHT OUTER JOIN"
  | fullOuter => some "FULL OUTER JOIN"
  | cross => some "CROSS JOIN"
  | raw => none

/-- Which rows of the two sides belong together. -/
inductive JoinConstraint (α : Type) where
  | on (predicate : α)
  /-- The columns of that name are equal. -/
  | columns (names : List String)
  deriving DecidableEq

structure Join (α : Type) where
  kind : JoinKind
  relation : α
  constraint? : Option (JoinConstraint α) := none
  deriving DecidableEq

/-- The relation read from and its joins. -/
structure Source (α : Type) where
  relation? : Option α := none
  joins : List (Join α) := []
  deriving DecidableEq

variable {α β : Type}

def JoinConstraint.map (f : α → β) : JoinConstraint α → JoinConstraint β
  | .on predicate => .on (f predicate)
  | .columns names => .columns names

def JoinConstraint.parts : JoinConstraint α → List α
  | .on predicate => [predicate]
  | .columns _ => []

def Join.map (f : α → β) (j : Join α) : Join β :=
  ⟨j.kind, f j.relation, j.constraint?.map (·.map f)⟩

def Join.parts (j : Join α) : List α :=
  j.relation :: (j.constraint?.map JoinConstraint.parts).getD []

def Source.map (f : α → β) (s : Source α) : Source β :=
  ⟨s.relation?.map f, s.joins.map (·.map f)⟩

def Source.parts (s : Source α) : List α := s.relation?.toList ++ s.joins.flatMap Join.parts

/-- Neither a relation nor a join. -/
def Source.isEmpty (s : Source α) : Bool := s.relation?.isNone && s.joins.isEmpty

end SqlTree
