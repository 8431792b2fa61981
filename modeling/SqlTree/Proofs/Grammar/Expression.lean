import SqlTree.Proofs.Grammar.Reader
import SqlTree.Proofs.Tree.Parts

/-!
# SqlTree — Proofs — expressions and what they mean

The grammar of the generic dialect (`Lexicon.generic`, `Grammar.generic`): its words, and for every
sign the strength by which parentheses are written.

* `Node.Expression`: the trees that are expressions.
* `Node.ToldApart`: a reader knows the functions of a tree, and takes none of its operators for one;
  there is such a reader if no operator is spelled like a function (`Node.exists_toldApart_iff`).
* `Node.erased`: what is left of an expression when it is read.  Parentheses, the difference
  between a value and a value of a column, and the nesting of conjunctions are erased, and a
  comparison with NULL is a test.
-/

namespace SqlTree

/-! ### The generic dialect -/

/-- The operators between two operands that the language spells. -/
def BinaryOperator.infixes : List BinaryOperator :=
  [equality, notEqual, greaterThan, greaterThanOrEqual, lessThan, lessThanOrEqual, isDistinctFrom,
    isNotDistinctFrom, contains, overlaps, or, addition, subtraction, multiplication, division,
    .concat, bitwiseAnd, bitwiseOr, bitwiseXor, shiftLeft, shiftRight]

def Lexicon.generic : Lexicon :=
  [(",", .comma), (".", .dot), ("AS", .naming), ("DISTINCT", .distinct), ("TRUE", .truth true),
    ("FALSE", .truth false), ("NOT", .not), ("CAST", .cast), ("CASE", .case), ("WHEN", .condition),
    ("THEN", .result), ("ELSE", .default), ("END", .finish), ("AND", .and), ("BETWEEN", .between),
    ("IN", .member false), ("NOT IN", .member true), ("IS NULL", .isNull false),
    ("IS NOT NULL", .isNull true), ("LIKE", .like false), ("NOT LIKE", .like true),
    ("ESCAPE", .escape), ("=", .operator .equality), ("!=", .operator .notEqual),
    (">", .operator .greaterThan), (">=", .operator .greaterThanOrEqual),
    ("<", .operator .lessThan), ("<=", .operator .lessThanOrEqual),
    ("IS DISTINCT FROM", .operator .isDistinctFrom),
    ("IS NOT DISTINCT FROM", .operator .isNotDistinctFrom), ("@>", .operator .contains),
    ("&&", .operator .overlaps), ("OR", .operator .or), ("+", .operator .addition),
    ("-", .operator .subtraction), ("*", .operator .multiplication), ("/", .operator .division),
    ("||", .operator .concat), ("&", .operator .bitwiseAnd), ("|", .operator .bitwiseOr),
    ("^", .operator .bitwiseXor), ("<<", .operator .shiftLeft), (">>", .operator .shiftRight)]

/-- The strengths of the generic dialect.  Comparisons do not follow each other. -/
def Grammar.generic (isFunction : String → Bool) : Grammar where
  strength
    | .operator op => op.strength
    | .and => Strength.conjunction
    | .isNull | .between | .member | .like => Strength.comparison
    | .not => Strength.negation
    | .leading => Strength.prefixed
  chains strength :=
    !([Strength.comparison, Strength.negation, Strength.prefixed].contains strength)
  isFunction := isFunction
  and_le_between := by decide
  chains_and := rfl
  chains_not := rfl
  chains_leading := rfl
  chains_pattern := rfl

/-- What follows a subtraction is subtracted from its difference. -/
example (a b c : Bind) :
    (Grammar.generic fun _ => false).read [.slot a, .mark (.operator .subtraction), .slot b,
      .mark (.operator .subtraction), .slot c] =
    some (.operator .subtraction (.operator .subtraction (.atom (.slot a)) (.atom (.slot b)))
      (.atom (.slot c))) := rfl

/-- A comparison of a comparison is not accepted without parentheses. -/
example (a b c : Bind) :
    (Grammar.generic fun _ => false).read [.slot a, .mark (.operator .equality), .slot b,
      .mark (.operator .equality), .slot c] = none := rfl

/-- A word that the caller may spell. -/
abbrev IsFree (text : String) : Prop := Lexicon.generic.IsFree text

/-! ### Expressions -/

/-- An operator between two operands, spelled by the language or by the caller. -/
inductive BinaryOperator.IsInfix : BinaryOperator → Prop
  | known {op : BinaryOperator} (h : op ∈ infixes) : IsInfix op
  | custom {text : String} (h : IsFree text) : IsInfix (custom text)

/-- The expressions.  A list stands in parentheses or on the right of IN, and no associative
operator stands at the root of its own right operand. -/
inductive Node.Expression : Node → Prop
  | column (c : Column) : Expression (of (.column c))
  | quoted (v : Value) : Expression (of (.quoted v))
  | casted (v : Value) (c : Column) : Expression (of (.casted v c))
  | param (b : Bind) : Expression (of (.param b))
  | bool (b : Bool) : Expression (of (.bool b))
  | grouping {e : Node} (he : Expression e) : Expression (of (.unary .grouping e))
  | tuple {items : List Node} (hitems : ∀ e ∈ items, Expression e) :
      Expression (of (.unary .grouping (of (.list items))))
  | not {e : Node} (he : Expression e) : Expression (of (.unary .not e))
  | leading {text : String} {e : Node} (free : IsFree text) (he : Expression e) :
      Expression (of (.unary (.leading text) e))
  | and {items : List Node} (nonempty : items ≠ []) (hitems : ∀ e ∈ items, Expression e) :
      Expression (of (.and items))
  | operator {op : BinaryOperator} {left right : Node} (hop : op.IsInfix)
      (hleft : Expression left) (hright : Expression right)
      (apart : op.isAssociative = true → right.operator? ≠ some op) :
      Expression (of (.binary op left right))
  | between {e low high : Node} (he : Expression e) (hlow : Expression low)
      (hhigh : Expression high) : Expression (of (.binary .between e (of (.and [low, high]))))
  | isIn {e : Node} {items : List Node} (he : Expression e) (nonempty : items ≠ [])
      (hitems : ∀ e ∈ items, Expression e) : Expression (of (.binary .isIn e (of (.list items))))
  | isNotIn {e : Node} {items : List Node} (he : Expression e) (nonempty : items ≠ [])
      (hitems : ∀ e ∈ items, Expression e) :
      Expression (of (.binary .isNotIn e (of (.list items))))
  | matching {left right : Node} (escape? : Option String) (caseSensitive negated : Bool)
      (hleft : Expression left) (hright : Expression right) :
      Expression (of (.matching left right escape? caseSensitive negated))
  | call {kind : FunctionKind} {arguments : List Node} (distinct : Bool) (hkind : kind ≠ .exists)
      (free : IsFree kind.text) (harguments : ∀ e ∈ arguments, Expression e) :
      Expression (of (.call ⟨kind, arguments, distinct, none⟩))
  | cast {e : Node} {typeName : String} (free : IsFree typeName) (he : Expression e) :
      Expression (of (.cast e typeName))
  | cases {c : Case Node} (nonempty : c.arms ≠ []) (hparts : ∀ e ∈ c.parts, Expression e) :
      Expression (of (.cases c))

/-! ### Functions and operators before an operand -/

/-- The name that a call is written with. -/
def Form.functionName? {α : Type} : Form α → Option String
  | call c => some c.kind.text
  | _ => none

/-- The word of an operator before its operand, which the caller spells. -/
def Form.leadingWord? {α : Type} : Form α → Option String
  | unary (.leading text) _ => some text
  | _ => none

namespace Node

/-- The functions that the tree calls. -/
def functionNames (e : Node) : List String := e.subtrees.filterMap fun s => s.form.functionName?

/-- The operators before an operand in the tree. -/
def leadingWords (e : Node) : List String := e.subtrees.filterMap fun s => s.form.leadingWord?

/-- The reader knows the functions of the tree from its operators: a word before a parenthesis may
be either. -/
structure ToldApart (isFunction : String → Bool) (e : Node) : Prop where
  functions : ∀ name ∈ e.functionNames, isFunction name = true
  operators : ∀ text ∈ e.leadingWords, isFunction text = false

namespace ToldApart

variable {isFunction : String → Bool} {form : Form Node}

theorem of_mem_parts (h : (of form).ToldApart isFunction) {e : Node} (he : e ∈ form.parts) :
    e.ToldApart isFunction where
  functions name hname := by
    obtain ⟨s, hs, called⟩ := List.mem_filterMap.mp hname
    exact h.functions name (List.mem_filterMap.mpr ⟨s, mem_subtrees_of_mem_parts he hs, called⟩)
  operators text htext := by
    obtain ⟨s, hs, leading⟩ := List.mem_filterMap.mp htext
    exact h.operators text (List.mem_filterMap.mpr ⟨s, mem_subtrees_of_mem_parts he hs, leading⟩)

theorem function (h : (of form).ToldApart isFunction) {name : String}
    (called : form.functionName? = some name) : isFunction name = true :=
  h.functions name (List.mem_filterMap.mpr ⟨of form, self_mem_subtrees _, called⟩)

theorem operator (h : (of form).ToldApart isFunction) {text : String}
    (leading : form.leadingWord? = some text) : isFunction text = false :=
  h.operators text (List.mem_filterMap.mpr ⟨of form, self_mem_subtrees _, leading⟩)

section
variable {op : BinaryOperator} {e e' : Node} (h : (of (.binary op e e')).ToldApart isFunction)
include h

theorem left : e.ToldApart isFunction := h.of_mem_parts List.mem_cons_self

theorem right : e'.ToldApart isFunction :=
  h.of_mem_parts (List.mem_cons_of_mem _ (List.mem_singleton_self e'))

end

end ToldApart

/-- There is such a reader wherever no operator is spelled like a function. -/
theorem exists_toldApart_iff {e : Node} :
    (∃ isFunction, e.ToldApart isFunction) ↔ ∀ text ∈ e.leadingWords, text ∉ e.functionNames := by
  constructor
  · rintro ⟨isFunction, told⟩ text leading called
    have known := told.functions text called
    rw [told.operators text leading] at known
    cases known
  · intro apart
    exact ⟨fun name => decide (name ∈ e.functionNames), fun _ called => decide_eq_true called,
      fun text leading => decide_eq_false (apart text leading)⟩

end Node

/-! ### What is left of an expression -/

/-- What a comparison with NULL tests: that there is no value, or that there is one. -/
def BinaryOperator.nullTest? : BinaryOperator → Option Bool
  | equality | isNotDistinctFrom => some false
  | notEqual | isDistinctFrom => some true
  | _ => none

/-- A comparison, which is a test where its right side is NULL. -/
def Tree.compared (op : BinaryOperator) (isNull : Bool) (left right : Tree) : Tree :=
  match op.nullTest?, isNull with
  | some negated, true => .isNull negated left
  | _, _ => .operator op left right

namespace Node

mutual

/-- The expression without its parentheses, its conjunctions flat.  The table of a column is what it
goes by, and whether a pattern minds the case of letters is not written in this dialect.  What is no
expression has no meaning here. -/
@[simp] def erased : Node → Tree
  | of (.column c) => .atom (.column c.table.qualifier c.name)
  | of (.quoted v) | of (.casted v _) => .atom (.slot ⟨none, some v⟩)
  | of (.param b) => .atom (.slot b)
  | of (.bool b) => .atom (.bool b)
  | of (.unary .grouping (of (.list items))) => .grouped (erasedAll items)
  | of (.unary .grouping e) => e.erased
  | of (.unary .not e) => .not e.erased
  | of (.unary (.leading text) e) => .leading text e.erased
  | of (.and items) => .conjunction (erasedAll items)
  | of (.binary .between e (of (.and [low, high]))) => .between e.erased low.erased high.erased
  | of (.binary .isIn e (of (.list items))) => .member false e.erased (erasedAll items)
  | of (.binary .isNotIn e (of (.list items))) => .member true e.erased (erasedAll items)
  | of (.binary op left right) => .compared op right.isNull left.erased right.erased
  | of (.matching left right escape? _ negated) =>
    .like negated left.erased right.erased escape?
  | of (.call ⟨kind, arguments, distinct, _⟩) => .call kind.text distinct (erasedAll arguments)
  | of (.cast e typeName) => .cast e.erased typeName
  | of (.cases ⟨subject?, arms, default?⟩) =>
    .cases (erasedOption subject?) (erasedArms arms) (erasedOption default?)
  | _ => .tuple []

@[simp] def erasedAll : List Node → List Tree
  | [] => []
  | e :: es => e.erased :: erasedAll es

@[simp] def erasedOption : Option Node → Option Tree
  | none => none
  | some e => some e.erased

@[simp] def erasedArms : List (Node × Node) → List (Tree × Tree)
  | [] => []
  | (condition, result) :: arms => (condition.erased, result.erased) :: erasedArms arms

end

theorem erasedAll_eq_map : ∀ es : List Node, erasedAll es = es.map erased
  | [] => rfl
  | e :: es => by rw [erasedAll, erasedAll_eq_map es]; rfl

theorem erasedOption_eq_map : ∀ e? : Option Node, erasedOption e? = e?.map erased
  | none | some _ => rfl

theorem erasedArms_eq_map : ∀ arms : List (Node × Node),
    erasedArms arms = arms.map fun arm => (arm.1.erased, arm.2.erased)
  | [] => rfl
  | (_, _) :: arms => by rw [erasedArms, erasedArms_eq_map arms]; rfl

end Node

end SqlTree
