import SqlTree.Expr.Operand

/-!
# SqlTree — Builder — joins

Relations and joins are added to a source one by one.  A constraint goes to the join added last, and
a raw join takes none.
-/

namespace SqlTree.Source

/-- One more join at the end.  SQL that the caller spells is a raw join, whatever kind is asked
for. -/
def join (kind : JoinKind) (relation : Node) (s : Source Node) : Source Node :=
  let kind :=
    match relation with
    | .of (.sql _) => .raw
    | .of _ => kind
  { s with joins := s.joins ++ [⟨kind, relation, none⟩] }

/-- The relation read from; a join goes to the joins instead. -/
def push (relation : Node) (s : Source Node) : Source Node :=
  match relation with
  | .of (.join j) => { s with joins := s.joins ++ [j] }
  | .of _ => { s with relation? := some relation }

/-- The source with the constraint of its last join changed. -/
def constrain (f : Option (JoinConstraint Node) → JoinConstraint Node) (s : Source Node) :
    Except Error (Source Node) :=
  match s.joins.getLast? with
  | none => .error .constraintWithoutJoin
  | some last =>
    if last.kind = .raw then .error .constraintOnRawJoin
    else
      let last := { last with constraint? := some (f last.constraint?) }
      .ok { s with joins := s.joins.dropLast ++ [last] }

/-- A predicate on the last join; a second one is added to the first. -/
def on (predicate : Node) : Source Node → Except Error (Source Node) :=
  constrain fun
    | some (.on earlier) => .on (earlier.and predicate)
    | some (.columns _) | none => .on predicate

/-- The columns that the last join has in common, in place of any other constraint. -/
def usingColumns (names : List String) : Source Node → Except Error (Source Node) :=
  constrain fun _ => .columns names

end SqlTree.Source
