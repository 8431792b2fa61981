/-!
# SqlTree — Clause — ordering and windows

Sort keys, the windows over which a function is computed, and their frames.
-/

namespace SqlTree

/-! ### Sort keys -/

inductive Direction where
  | asc | desc
  deriving DecidableEq, Repr

def Direction.text : Direction → String
  | asc => "ASC"
  | desc => "DESC"

def Direction.reverse : Direction → Direction
  | asc => desc
  | desc => asc

/-- The end at which rows without a value come. -/
inductive NullsPlacement where
  | first | last
  deriving DecidableEq, Repr

def NullsPlacement.reverse : NullsPlacement → NullsPlacement
  | first => last
  | last => first

structure SortKey (α : Type) where
  expr : α
  direction : Direction
  nulls? : Option NullsPlacement := none
  deriving DecidableEq

/-! ### Windows -/

inductive FrameBound where
  | unboundedPreceding
  | preceding (n : Nat)
  | currentRow
  | following (n : Nat)
  | unboundedFollowing
  deriving DecidableEq, Repr

def FrameBound.text : FrameBound → String
  | unboundedPreceding => "UNBOUNDED PRECEDING"
  | preceding n => toString n ++ " PRECEDING"
  | currentRow => "CURRENT ROW"
  | following n => toString n ++ " FOLLOWING"
  | unboundedFollowing => "UNBOUNDED FOLLOWING"

inductive FrameUnits where
  | rows | range
  deriving DecidableEq, Repr

def FrameUnits.text : FrameUnits → String
  | rows => "ROWS"
  | range => "RANGE"

/-- The rows around the current one; the short form names only where they start. -/
structure Frame where
  units : FrameUnits
  start : FrameBound
  stop? : Option FrameBound := none
  deriving DecidableEq, Repr

def Frame.text (f : Frame) : String :=
  match f.stop? with
  | some stop => f.units.text ++ " BETWEEN " ++ f.start.text ++ " AND " ++ stop.text
  | none => f.units.text ++ " " ++ f.start.text

structure Window (α : Type) where
  partitions : List α := []
  orders : List α := []
  frame? : Option Frame := none
  deriving DecidableEq

structure NamedWindow (α : Type) where
  name : String
  window : Window α
  deriving DecidableEq

/-- The window that follows OVER. -/
inductive WindowRef (α : Type) where
  /-- All rows. -/
  | empty
  | named (name : String)
  | inline (window : Window α)
  deriving DecidableEq

variable {α β : Type}

def SortKey.map (f : α → β) (k : SortKey α) : SortKey β := ⟨f k.expr, k.direction, k.nulls?⟩

/-- The opposite direction, with the rows without a value at the other end. -/
def SortKey.reverse (k : SortKey α) : SortKey α :=
  ⟨k.expr, k.direction.reverse, k.nulls?.map NullsPlacement.reverse⟩

def Window.map (f : α → β) (w : Window α) : Window β :=
  ⟨w.partitions.map f, w.orders.map f, w.frame?⟩

def Window.parts (w : Window α) : List α := w.partitions ++ w.orders

def NamedWindow.map (f : α → β) (w : NamedWindow α) : NamedWindow β := ⟨w.name, w.window.map f⟩

def WindowRef.map (f : α → β) : WindowRef α → WindowRef β
  | empty => .empty
  | named name => .named name
  | inline window => .inline (window.map f)

def WindowRef.parts : WindowRef α → List α
  | empty | named _ => []
  | inline window => window.parts

end SqlTree
