import SqlTree.Proofs.Grammar.Token

/-!
# SqlTree — Proofs — reading by a table of precedence

An engine reads an expression by a table of its own (`Precedence`): levels of operators from the
loosest to the tightest, each operator by how it is spelled.  The reader is a machine with a stack
of operators that wait for their last operand and of open parentheses.  An operator between two
operands pulls at the one before it; the machine first closes what waits and binds that operand at
least as tightly (`Precedence.collapse`).  An operator before its operand may stand wherever an
operand is wanted.

* `Precedence.read`: the phrase that tokens are read as, if they are accepted.
-/

namespace SqlTree

/-! ### Tables -/

/-- Operators that bind equally tight: between two operands, before one and behind one. -/
structure Level where
  between : List String := []
  before : List String := []
  behind : List String := []
  /-- Whether several of them may follow each other, the left one taken first. -/
  chains : Bool := true

/-- Levels from the loosest to the tightest. -/
abbrev Precedence := List Level

/-! ### What is read -/

/-- An expression by the spelling of its operators.  Parentheses leave no trace, and a conjunction
is flat. -/
inductive Phrase where
  | name (text : String)
  | string (text : String)
  | slot (bind : Bind)
  | star
  | before (sign : String) (p : Phrase)
  | between (sign : String) (left right : Phrase)
  | behind (sign : String) (p : Phrase)
  | all (items : List Phrase)

namespace Phrase

/-- The items of a conjunction; any other phrase is one item. -/
def conjuncts : Phrase → List Phrase
  | all items => items
  | p => [p]

def conjoin (left right : Phrase) : Phrase := all (left.conjuncts ++ right.conjuncts)

/-- An operator between two operands. -/
def join (sign : String) (left right : Phrase) : Phrase :=
  if sign = "AND" then left.conjoin right else between sign left right

theorem conjoin_assoc (p q r : Phrase) : (p.conjoin q).conjoin r = p.conjoin (q.conjoin r) := by
  simp [conjoin, conjuncts]

end Phrase

namespace Precedence

variable (P : Precedence)

/-- The level that has the word in the given place, counted from 1. -/
def levelOf (words : Level → List String) (word : String) : Option Nat :=
  (P.findIdx? fun level => (words level).contains word).map (· + 1)

def between? (word : String) : Option Nat := P.levelOf Level.between word

def before? (word : String) : Option Nat := P.levelOf Level.before word

def behind? (word : String) : Option Nat := P.levelOf Level.behind word

def chains (rank : Nat) : Bool := (P[rank - 1]?.map Level.chains).getD true

/-! ### The machine -/

inductive Frame where
  | parens
  /-- An operator that waits for its last operand, after its first one if it has two. -/
  | pending (sign : String) (rank : Nat) (left? : Option Phrase)

inductive State where
  /-- An operand comes next. -/
  | want (frames : List Frame)
  /-- An operand has been read. -/
  | got (frames : List Frame) (p : Phrase)

/-- What an operator makes of its last operand. -/
def close (sign : String) (left? : Option Phrase) (p : Phrase) : Phrase :=
  match left? with
  | some left => left.join sign p
  | none => .before sign p

/-- The rank of the operator that waits for the next operand. -/
def waiting : List Frame → Nat
  | .pending _ rank _ :: _ => rank
  | _ => 0

/-- An operand of the strength `rank` ends before an operator with the pull. -/
def Ends (rank pull : Nat) : Prop := pull < rank ∨ pull = rank ∧ P.chains rank = true

instance (rank pull : Nat) : Decidable (P.Ends rank pull) :=
  inferInstanceAs (Decidable (pull < rank ∨ pull = rank ∧ P.chains rank = true))

/-- How strongly a token pulls at the operand before it. -/
def pull : Token → Nat
  | .word text => ((P.between? text).or (P.behind? text)).getD 0
  | _ => 0

/-- The operand read, after every operator has been closed that keeps it from the pull. -/
def collapse (pull : Nat) : List Frame → Phrase → List Frame × Phrase
  | .pending sign rank left? :: frames, p =>
    if P.Ends rank pull then collapse pull frames (close sign left? p)
    else (.pending sign rank left? :: frames, p)
  | frames, p => (frames, p)

/-- An operand is wanted. -/
def operand (frames : List Frame) : Token → Option State
  | .name text => some (.got frames (.name text))
  | .string text => some (.got frames (.string text))
  | .slot bind => some (.got frames (.slot bind))
  | .opening => some (.want (.parens :: frames))
  | .word text =>
    if text = "*" then some (.got frames .star)
    else (P.before? text).map fun rank => .want (.pending text rank none :: frames)
  | _ => none

/-- An operand has been read, and no operator that waits takes it.  An operator does not follow one
of its own level that does not chain. -/
def next (frames : List Frame) (p : Phrase) : Token → Option State
  | .closing =>
    match frames with
    | .parens :: frames => some (.got frames p)
    | _ => none
  | .word text =>
    if waiting frames = P.pull (.word text) then none
    else
      match P.between? text with
      | some rank => some (.want (.pending text rank (some p) :: frames))
      | none => (P.behind? text).map fun _ => .got frames (.behind text p)
  | _ => none

/-- One token. -/
def step : State → Token → Option State
  | .want frames, tok => P.operand frames tok
  | .got frames p, tok =>
    let kept := P.collapse (P.pull tok) frames p
    P.next kept.1 kept.2 tok

/-- The phrase that has been read when the tokens end. -/
def finish : State → Option Phrase
  | .got frames p =>
    match P.collapse 0 frames p with
    | ([], p) => some p
    | _ => none
  | .want _ => none

/-- What comes of a state when the rest of the tokens is read. -/
def resume : State → List Token → Option Phrase
  | st, [] => P.finish st
  | st, tok :: toks =>
    match P.step st tok with
    | some st => resume st toks
    | none => none

/-- The phrase that the tokens are read as, if they are accepted. -/
def read (toks : List Token) : Option Phrase := P.resume (.want []) toks

end Precedence

end SqlTree
