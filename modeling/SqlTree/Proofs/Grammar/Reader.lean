import SqlTree.Proofs.Grammar.Token

/-!
# SqlTree — Proofs — reading tokens

Tokens are read from left to right by a grammar of operator strengths (`Grammar`).  The reader is a
machine with a stack: a frame for each operator that waits for its last operand, and a frame for
each construct that is open.  Before it takes the next token the machine closes every waiting
operator that binds its operand at least as tightly as the token pulls at it (`Grammar.collapse`),
so that a stronger operator keeps its operand and, between equals, the left one does.

* `Grammar.read`: the tree that tokens are read as, if they are accepted.
* `Tree`: what is read.  A conjunction is flat, and parentheses leave no trace.
-/

namespace SqlTree

/-! ### What is read -/

inductive Atom where
  /-- All columns of the table are called by a star. -/
  | column (table name : String)
  | slot (bind : Bind)
  | bool (b : Bool)
  deriving DecidableEq

inductive Tree where
  | atom (a : Atom)
  | tuple (items : List Tree)
  | not (t : Tree)
  | leading (text : String) (t : Tree)
  | and (items : List Tree)
  | operator (op : BinaryOperator) (left right : Tree)
  | isNull (negated : Bool) (t : Tree)
  | between (t low high : Tree)
  | member (negated : Bool) (t : Tree) (items : List Tree)
  | like (negated : Bool) (t pattern : Tree) (escape? : Option String)
  | call (name : String) (distinct : Bool) (arguments : List Tree)
  | cast (t : Tree) (typeName : String)
  | cases (subject? : Option Tree) (arms : List (Tree × Tree)) (default? : Option Tree)

namespace Tree

/-- The items of a conjunction; any other tree is one item. -/
def conjuncts : Tree → List Tree
  | and items => items
  | t => [t]

def conjoin (left right : Tree) : Tree := and (left.conjuncts ++ right.conjuncts)

/-- The flat conjunction of trees; one tree is left as it is. -/
def conjunction : List Tree → Tree
  | [t] => t
  | ts => and (ts.flatMap conjuncts)

theorem conjoin_assoc (a b c : Tree) : conjoin (conjoin a b) c = conjoin a (conjoin b c) := by
  simp [conjoin, conjuncts]

theorem conjunction_cons (t : Tree) (ts : List Tree) :
    conjunction (t :: ts) = ts.foldl conjoin t := by
  have flat : ∀ (ts us : List Tree),
      ts.foldl conjoin (and us) = and (us ++ ts.flatMap conjuncts) := by
    intro ts
    induction ts with
    | nil => simp
    | cons t ts ih =>
        intro us
        simp [conjoin, conjuncts, ih]
  cases ts with
  | nil => rfl
  | cons u us => simp [conjunction, conjoin, flat]

/-- A list in parentheses: one item in parentheses is that item. -/
def grouped : List Tree → Tree
  | [t] => t
  | ts => tuple ts

end Tree

/-! ### Grammars -/

/-- What binds operands. -/
inductive Sign where
  | operator (op : BinaryOperator)
  | and | isNull | between | member | like
  | not
  /-- An operator before its operand that the caller spells. -/
  | leading
  deriving DecidableEq

structure Grammar where
  /-- The greater binds tighter. -/
  strength : Sign → Nat
  /-- Whether signs of that strength may follow each other, the left one taken first. -/
  chains : Nat → Bool
  /-- The words that are names of functions, and no operators. -/
  isFunction : String → Bool
  /-- The AND of BETWEEN is not taken from within its lower bound. -/
  and_le_between : strength .and ≤ strength .between
  chains_and : chains (strength .and) = true
  /-- What a sign before its operand binds ends before every sign of that strength. -/
  chains_not : chains (strength .not) = false
  chains_leading : chains (strength .leading) = false
  /-- The pattern of LIKE ends before its escape character. -/
  chains_pattern : chains (strength .like + 1) = true

namespace Grammar

/-! ### The machine -/

/-- A sign that waits for its last operand. -/
inductive Pending where
  | not
  | leading (text : String)
  | and (left : Tree)
  | operator (op : BinaryOperator) (left : Tree)
  | like (negated : Bool) (left : Tree)
  | between (t low : Tree)

/-- What parentheses belong to. -/
inductive Bracket where
  | group
  | call (name : String) (distinct : Bool)
  | members (negated : Bool) (t : Tree)

inductive Frame where
  | pending (p : Pending)
  | items (b : Bracket) (before : List Tree)
  /-- BETWEEN before its lower bound. -/
  | low (t : Tree)
  | cast
  | subject
  | condition (subject? : Option Tree) (arms : List (Tree × Tree))
  | result (subject? : Option Tree) (arms : List (Tree × Tree)) (condition : Tree)
  | default (subject? : Option Tree) (arms : List (Tree × Tree))

inductive State where
  /-- An operand comes next. -/
  | want (frames : List Frame)
  /-- An operand has been read; a sign of the strength `spent?` may not follow. -/
  | got (frames : List Frame) (t : Tree) (spent? : Option Nat)
  /-- A table has been named, and then its dot. -/
  | table (frames : List Frame) (name : String)
  | dotted (frames : List Frame) (table : String)
  /-- Parentheses have to open. -/
  | opens (frame : Frame) (frames : List Frame)
  | typed (frames : List Frame) (t : Tree)
  /-- Parentheses have to close. -/
  | closes (frames : List Frame) (t : Tree)
  | escaped (frames : List Frame) (negated : Bool) (left pattern : Tree)

def Pending.sign : Pending → Sign
  | not => .not
  | leading _ => .leading
  | and _ => .and
  | operator op _ => .operator op
  | like .. => .like
  | between .. => .between

def Pending.apply : Pending → Tree → Tree
  | not, t => .not t
  | leading text, t => .leading text t
  | and left, t => left.conjoin t
  | operator op left, t => .operator op left t
  | like negated left, t => .like negated left t none
  | between x low, t => .between x low t

/-- What stands in parentheses. -/
def Bracket.apply : Bracket → List Tree → Tree
  | group, items => .grouped items
  | call name distinct, items => .call name distinct items
  | members negated t, items => .member negated t items

variable (G : Grammar)

/-- The least strength of an operand: the operand on the right of a sign binds tighter than it. -/
def Pending.level (p : Pending) : Nat :=
  match p with
  | .not | .leading _ => G.strength p.sign
  | .and _ | .operator .. | .like .. | .between .. => G.strength p.sign + 1

/-- The least strength of what may stand bare on the frames. -/
def least : List Frame → Nat
  | .pending p :: _ => p.level G
  | .low _ :: _ => G.strength .between + 1
  | _ => 0

/-- The strength that is spent when a sign of that strength has its operands. -/
def spent? (strength : Nat) : Option Nat := if G.chains strength then none else some strength

/-- A test of membership is a sign with all its operands. -/
def Bracket.spent? : Bracket → Option Nat
  | .members .. => G.spent? (G.strength .member)
  | .group | .call .. => none

/-- The operand read, after every waiting sign has been closed that a token with that pull does not
take the operand from. -/
def collapse (pull : Nat) : List Frame → Tree → Option Nat → List Frame × Tree × Option Nat
  | .pending p :: frames, t, spent? =>
    if pull < p.level G then
      collapse pull frames (p.apply t) (G.spent? (G.strength p.sign))
    else (.pending p :: frames, t, spent?)
  | frames, t, spent? => (frames, t, spent?)

/-- How strongly a token pulls at the operand before it. -/
def pull : Token → Nat
  | .mark (.operator op) => G.strength (.operator op)
  | .word text => G.strength (.operator (.custom text))
  | .mark .and => G.strength .and
  | .mark (.isNull _) => G.strength .isNull
  | .mark .between => G.strength .between
  | .mark (.member _) => G.strength .member
  | .mark (.like _) => G.strength .like
  -- the escape character belongs to the pattern before it
  | .mark .escape => G.strength .like + 1
  | _ => 0

/-- The sign may stand between what is read and what the frames wait for. -/
def fits (sign : Sign) (frames : List Frame) (spent? : Option Nat) : Bool :=
  G.least frames ≤ G.strength sign ∧ spent? ≠ some (G.strength sign)

/-- An operand is wanted. -/
def operand (frames : List Frame) : Token → Option State
  | .slot b => some (.got frames (.atom (.slot b)) none)
  | .mark (.truth b) => some (.got frames (.atom (.bool b)) none)
  | .name text => some (.table frames text)
  | .opening => some (.want (.items .group [] :: frames))
  | .closing =>
    match frames with
    | .items .group [] :: frames => some (.got frames (.tuple []) none)
    | .items (.call name distinct) [] :: frames => some (.got frames (.call name distinct []) none)
    | _ => none
  | .mark .not =>
    if G.least frames ≤ G.strength .not then some (.want (.pending .not :: frames)) else none
  | .word text =>
    if G.isFunction text then some (.opens (.items (.call text false) []) frames)
    else if G.least frames ≤ G.strength .leading then
      some (.want (.pending (.leading text) :: frames))
    else none
  | .mark .distinct =>
    match frames with
    | .items (.call name false) [] :: frames =>
      some (.want (.items (.call name true) [] :: frames))
    | _ => none
  | .mark .cast => some (.opens .cast frames)
  | .mark .case => some (.want (.subject :: frames))
  | .mark .condition =>
    match frames with
    | .subject :: frames => some (.want (.condition none [] :: frames))
    | _ => none
  | _ => none

/-- An operand has been read, and no waiting sign takes it. -/
def next (frames : List Frame) (t : Tree) (spent? : Option Nat) : Token → Option State
  | .mark (.operator op) =>
    if G.fits (.operator op) frames spent? then
      some (.want (.pending (.operator op t) :: frames))
    else none
  | .word text =>
    if G.fits (.operator (.custom text)) frames spent? then
      some (.want (.pending (.operator (.custom text) t) :: frames))
    else none
  | .mark .and =>
    match frames with
    | .low x :: frames => some (.want (.pending (.between x t) :: frames))
    | frames =>
      if G.fits .and frames spent? then some (.want (.pending (.and t) :: frames)) else none
  | .mark (.isNull negated) =>
    if G.fits .isNull frames spent? then
      some (.got frames (.isNull negated t) (G.spent? (G.strength .isNull)))
    else none
  | .mark .between =>
    if G.fits .between frames spent? then some (.want (.low t :: frames)) else none
  | .mark (.member negated) =>
    if G.fits .member frames spent? then some (.opens (.items (.members negated t) []) frames)
    else none
  | .mark (.like negated) =>
    if G.fits .like frames spent? then some (.want (.pending (.like negated t) :: frames)) else none
  | .mark .escape =>
    match frames with
    | .pending (.like negated left) :: frames => some (.escaped frames negated left t)
    | _ => none
  | .mark .comma =>
    match frames with
    | .items b before :: frames => some (.want (.items b (before ++ [t]) :: frames))
    | _ => none
  | .closing =>
    match frames with
    | .items b before :: frames => some (.got frames (b.apply (before ++ [t])) (b.spent? G))
    | _ => none
  | .mark .naming =>
    match frames with
    | .cast :: frames => some (.typed frames t)
    | _ => none
  | .mark .condition =>
    match frames with
    | .subject :: frames => some (.want (.condition (some t) [] :: frames))
    | .result subject? arms c :: frames =>
      some (.want (.condition subject? (arms ++ [(c, t)]) :: frames))
    | _ => none
  | .mark .result =>
    match frames with
    | .condition subject? arms :: frames => some (.want (.result subject? arms t :: frames))
    | _ => none
  | .mark .default =>
    match frames with
    | .result subject? arms c :: frames =>
      some (.want (.default subject? (arms ++ [(c, t)]) :: frames))
    | _ => none
  | .mark .finish =>
    match frames with
    | .result subject? arms c :: frames =>
      some (.got frames (.cases subject? (arms ++ [(c, t)]) none) none)
    | .default subject? arms :: frames => some (.got frames (.cases subject? arms (some t)) none)
    | _ => none
  | _ => none

/-- One token. -/
def step : State → Token → Option State
  | .want frames, tok => G.operand frames tok
  | .got frames t spent?, tok =>
    let (frames, t, spent?) := G.collapse (G.pull tok) frames t spent?
    G.next frames t spent? tok
  | .table frames name, .mark .dot => some (.dotted frames name)
  | .dotted frames table, .name text => some (.got frames (.atom (.column table text)) none)
  | .dotted frames table, .mark (.operator .multiplication) =>
    some (.got frames (.atom (.column table "*")) none)
  | .opens frame frames, .opening => some (.want (frame :: frames))
  | .typed frames t, .word text => some (.closes frames (.cast t text))
  | .closes frames t, .closing => some (.got frames t none)
  | .escaped frames negated left pattern, .string text =>
    some (.got frames (.like negated left pattern (some text)) (G.spent? (G.strength .like)))
  | _, _ => none

/-- The tree that has been read when the tokens end. -/
def finish : State → Option Tree
  | .got frames t spent? =>
    match G.collapse 0 frames t spent? with
    | ([], t, _) => some t
    | _ => none
  | _ => none

/-- What comes of a state when the rest of the tokens is read. -/
def resume : State → List Token → Option Tree
  | st, [] => G.finish st
  | st, tok :: toks =>
    match G.step st tok with
    | some st => resume st toks
    | none => none

/-- The tree that the tokens are read as, if they are accepted. -/
def read (toks : List Token) : Option Tree := G.resume (.want []) toks

end Grammar

end SqlTree
