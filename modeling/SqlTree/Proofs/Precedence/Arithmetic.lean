import SqlTree.Proofs.Precedence.ReadBack
import Mathlib.Tactic.SplitIfs

/-!
# SqlTree — Proofs — arithmetic

Arithmetic over columns has a value once the columns have one (`Node.number?`), and so has what is
read of its text, with products above sums and everything from the left (`Phrase.number?`).

* `BinaryOperator.Regroups.combine?_assoc`: where it does not matter for the value whether operands
  are taken from the left or from the right.
* `Node.losesQuotient`: the trees that do not keep their value in the text.
-/

namespace SqlTree

open Draft Precedence

/-! ### Values -/

/-- The values of columns by the names that stand in the text: of the table and of the column. -/
abbrev ColumnValues := String → String → Int

namespace BinaryOperator

/-- The operators of arithmetic. -/
abbrev arithmetic : List BinaryOperator := [addition, subtraction, multiplication, division]

/-- The operator of arithmetic that a sign stands for. -/
def ofSign? : String → Option BinaryOperator
  | "+" => some addition
  | "-" => some subtraction
  | "*" => some multiplication
  | "/" => some division
  | _ => none

/-- Exact integers, with a division that drops what is after the point. -/
def compute? : BinaryOperator → Int → Int → Option Int
  | addition, x, y => some (x + y)
  | subtraction, x, y => some (x - y)
  | multiplication, x, y => some (x * y)
  | division, x, y => if y = 0 then none else some (x.tdiv y)
  | _, _, _ => none

def combine? (op : BinaryOperator) (x? y? : Option Int) : Option Int :=
  x?.bind fun x => y?.bind fun y => op.compute? x y

end BinaryOperator

def Form.number? (values : ColumnValues) : Form (Node × Option Int) → Option Int
  | column c => some (values c.table.qualifier c.name)
  | unary .grouping e => e.2
  | binary op left right => op.combine? left.2 right.2
  | _ => none

/-- The value of a tree, unless it divides by zero. -/
def Node.number? (values : ColumnValues) : Node → Option Int := fold (Form.number? values)

namespace Phrase

/-- The value of a name after the name of a table. -/
def column? (values : ColumnValues) : Phrase → Phrase → Option Int
  | name table, name column => some (values table column)
  | _, _ => none

/-- The value of what was read, unless it divides by zero. -/
def number? (values : ColumnValues) : Phrase → Option Int
  | between sign left right =>
    if sign = "." then left.column? values right
    else (BinaryOperator.ofSign? sign).bind fun op =>
      op.combine? (left.number? values) (right.number? values)
  | _ => none

theorem number?_join (values : ColumnValues) {op : BinaryOperator}
    (hop : op ∈ BinaryOperator.arithmetic) (p q : Phrase) :
    (p.join op.text q).number? values = op.combine? (p.number? values) (q.number? values) := by
  have signs : ∀ op ∈ BinaryOperator.arithmetic, op.text ≠ "AND" ∧ op.text ≠ "." ∧
      BinaryOperator.ofSign? op.text = some op := by decide
  obtain ⟨single, sign, found⟩ := signs op hop
  rw [join, if_neg single, number?, if_neg sign, found, Option.bind_some]

end Phrase

namespace BinaryOperator

/-- Whether operands of `op'` that begin with an operand of `op` may be taken from the left. -/
def Regroups (op op' : BinaryOperator) : Prop :=
  op = addition ∧ (op' = addition ∨ op' = subtraction) ∨
    op = multiplication ∧ op' = multiplication

/-- A sum or difference of sums, and a product of products, from the left or from the right. -/
theorem Regroups.combine?_assoc {op op' : BinaryOperator} (h : op.Regroups op')
    (x? y? z? : Option Int) :
    op'.combine? (op.combine? x? y?) z? = op.combine? x? (op'.combine? y? z?) := by
  obtain _ | x := x?
  · rfl
  obtain _ | y := y?
  · rfl
  obtain _ | z := z?
  · obtain ⟨rfl, rfl | rfl⟩ | ⟨rfl, rfl⟩ := h <;> rfl
  obtain ⟨rfl, rfl | rfl⟩ | ⟨rfl, rfl⟩ := h
  · exact congrArg some (Int.add_assoc x y z)
  · exact congrArg some (Int.add_sub_assoc x y z)
  · exact congrArg some (Int.mul_assoc x y z)

end BinaryOperator

/-! ### Trees -/

/-- Some quotient is the first operand that is written, unless it is in parentheses. -/
def Form.quotientFirst : Form (Node × Bool) → Bool
  | binary .division _ _ => true
  | binary .multiplication left _ => left.2
  | _ => false

namespace Node

/-- Arithmetic over columns, in parentheses or not. -/
inductive IsArithmetic : Node → Prop
  | column (c : Column) (single : c.isStar = false) : IsArithmetic (of (.column c))
  | binary {op : BinaryOperator} {left right : Node} (hop : op ∈ BinaryOperator.arithmetic)
      (hleft : IsArithmetic left) (hright : IsArithmetic right) :
      IsArithmetic (binary op left right)
  | grouping {e : Node} (he : IsArithmetic e) : IsArithmetic e.grouping

/-- The operator methods build arithmetic. -/
theorem IsArithmetic.calculate {op : BinaryOperator} {left right : Node}
    (hop : op ∈ BinaryOperator.arithmetic) (hleft : left.IsArithmetic)
    (hright : right.IsArithmetic) : (left.calculate op (.node right)).IsArithmetic := by
  rw [calculate_eq]
  split
  · exact .grouping (.binary hop hleft hright)
  · exact .binary hop hleft hright

/-- A bare quotient comes first. -/
def quotientFirst : Node → Bool := fold Form.quotientFirst

/-- A product with a product on its right that has a bare quotient first. -/
def losesQuotient : Node → Bool
  | of (.binary .multiplication _ right) =>
    right.operator? == some .multiplication && right.quotientFirst
  | _ => false

/-- Where no product has a bare quotient first on its right. -/
def KeepsQuotients (e : Node) : Prop := ∀ s ∈ e.subtrees, s.losesQuotient = false

theorem keepsQuotients_of_all {e : Node} (h : (e.subtrees.all fun s => !s.losesQuotient) = true) :
    e.KeepsQuotients := by
  intro s hs
  have kept := List.all_eq_true.mp h s hs
  rwa [Bool.not_eq_true'] at kept

theorem KeepsQuotients.of_mem_parts {form : Form Node} {e : Node} (h : (of form).KeepsQuotients)
    (he : e ∈ form.parts) : e.KeepsQuotients :=
  fun s hs => h s (mem_subtrees_of_mem_parts he hs)

theorem number?_column (values : ColumnValues) (c : Column) :
    (of (.column c)).number? values = some (values c.table.qualifier c.name) := by
  rw [number?, fold_of]
  rfl

theorem number?_binary (values : ColumnValues) (op : BinaryOperator) (left right : Node) :
    (binary op left right).number? values =
      op.combine? (left.number? values) (right.number? values) := by
  rw [binary, number?, fold_of]
  rfl

theorem number?_grouping (values : ColumnValues) (e : Node) :
    e.grouping.number? values = e.number? values := by
  rw [grouping, unary, number?, fold_of]
  rfl

theorem quotientFirst_of_product (left right : Node) :
    (binary .multiplication left right).quotientFirst = left.quotientFirst := by
  rw [binary, quotientFirst, fold_of]
  rfl

theorem quotientFirst_of_quotient (left right : Node) :
    (binary .division left right).quotientFirst = true := by
  rw [binary, quotientFirst, fold_of]
  rfl

end Node

/-! ### The table -/

/-- Products above sums, and a name after its table above both. -/
def Precedence.usual : Precedence :=
  [{ between := ["+", "-"] }, { between := ["*", "/"] }, { between := ["."] }]

/-- The rank that an operand of the strength may stand behind, and the one that it bears. -/
def level (strength : Nat) : Nat :=
  if strength ≤ Strength.additive then 1 else if strength ≤ Strength.multiplicative then 2 else 3

theorem level_le {m n : Nat} (h : m ≤ n) : level m ≤ level n := by
  unfold level
  split_ifs <;> omega

theorem one_le_level (n : Nat) : 1 ≤ level n := by
  unfold level
  split_ifs <;> omega

theorem ends_level (n : Nat) : usual.Ends (level n) (level n) := by
  refine .inr ⟨rfl, ?_⟩
  unfold level
  split_ifs <;> rfl

namespace BinaryOperator

variable {op op' : BinaryOperator}

/-- What the table knows of an operator, and how it is written. -/
theorem known_of_arithmetic (hop : op ∈ arithmetic) :
    usual.between? op.text = some (level op.strength) ∧
      Lexicon.ofText [] (" " ++ op.text ++ " ") = [.word op.text] ∧
      level op.strength < level (op.strength + 1) := by
  revert op
  decide

theorem level_of_regroups (h : op.Regroups op') : level op.strength = level op'.strength := by
  obtain ⟨rfl, rfl | rfl⟩ | ⟨rfl, rfl⟩ := h <;> rfl

end BinaryOperator

/-- The strength that an operand on the right needs. -/
def rightLeast (op : BinaryOperator) (right : Node) : Nat :=
  if op.isAssociative && right.operator? == some op then op.strength else op.strength + 1

theorem Node.arithmetic_draft {op : BinaryOperator} (hop : op ∈ BinaryOperator.arithmetic)
    (left right : Node) :
    (binary op left right).draft .generic .item =
      (left.part .generic).operand op.strength ++ fixed (" " ++ op.text ++ " ") ++
        (right.part .generic).operand (rightLeast op right) := by
  rw [binary, draft_item]
  simp only [BinaryOperator.arithmetic, List.mem_cons, List.not_mem_nil, or_false] at hop
  obtain rfl | rfl | rfl | rfl := hop <;> rfl

end SqlTree
