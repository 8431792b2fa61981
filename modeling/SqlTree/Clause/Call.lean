import SqlTree.Table

/-!
# SqlTree — Clause — calls and cases

Calls of functions, with the names of their results, and CASE expressions.
-/

namespace SqlTree

/-! ### Functions -/

inductive FunctionKind where
  | count | sum | max | min | avg
  /-- The test whether a sub-select has rows. -/
  | exists
  | named (name : String)
  deriving DecidableEq, Repr

def FunctionKind.text : FunctionKind → String
  | count => "COUNT"
  | sum => "SUM"
  | max => "MAX"
  | min => "MIN"
  | avg => "AVG"
  | .exists => "EXISTS"
  | named name => name

/-- The first word of the name that an aggregate of a column gets by itself. -/
def FunctionKind.shortName? : FunctionKind → Option String
  | count => some "count"
  | sum => some "sum"
  | max => some "max"
  | min => some "min"
  | avg => some "avg"
  | .exists | named _ => none

/-- The name of a call's result.  An implicit one is derived from the argument and shows only where
the call is a projection of its own. -/
structure CallAlias where
  name : String
  isImplicit : Bool
  deriving DecidableEq, Repr

structure Call (α : Type) where
  kind : FunctionKind
  arguments : List α
  distinct : Bool := false
  alias? : Option CallAlias := none
  deriving DecidableEq

/-- A character of a bare identifier. -/
def isWordChar (c : Char) : Bool := c.isAlphanum || c == '_'

/-- The word characters in small letters, with one underscore for every gap between them. -/
def squeeze (gap : Bool) : List Char → List Char
  | [] => []
  | c :: cs =>
    if isWordChar c then
      if gap then '_' :: c.toLower :: squeeze false cs else c.toLower :: squeeze false cs
    else squeeze true cs

/-- The name of a column as one bare word: whatever is no ASCII letter, digit or underscore is
dropped at the ends and becomes an underscore inside. -/
def bareWord (name : String) : String :=
  String.ofList (squeeze false (name.toList.dropWhile fun c => !isWordChar c))

/-- The implicit name of an aggregate of a column, if the column has a word for it. -/
def implicitAlias (kind : FunctionKind) (c : Column) : Option CallAlias :=
  match kind.shortName? with
  | some word =>
    let rest := bareWord c.name
    if c.isStar || rest.isEmpty then none else some ⟨word ++ "_" ++ rest, true⟩
  | none => none

/-! ### Cases -/

/-- CASE: with a subject each condition is compared with it, without one each is a predicate. -/
structure Case (α : Type) where
  subject? : Option α := none
  arms : List (α × α) := []
  default? : Option α := none
  deriving DecidableEq

variable {α β : Type}

def Call.map (f : α → β) (c : Call α) : Call β := ⟨c.kind, c.arguments.map f, c.distinct, c.alias?⟩

/-- The call under a name that always shows. -/
def Call.named (name : String) (c : Call α) : Call α :=
  ⟨c.kind, c.arguments, c.distinct, some ⟨name, false⟩⟩

def Case.map (f : α → β) (c : Case α) : Case β :=
  ⟨c.subject?.map f, c.arms.map fun arm => (f arm.1, f arm.2), c.default?.map f⟩

def Case.parts (c : Case α) : List α :=
  c.subject?.toList ++ c.arms.flatMap (fun arm => [arm.1, arm.2]) ++ c.default?.toList

/-- One more arm, after those it has. -/
def Case.when (c : Case α) (condition result : α) : Case α :=
  ⟨c.subject?, c.arms ++ [(condition, result)], c.default?⟩

end SqlTree
