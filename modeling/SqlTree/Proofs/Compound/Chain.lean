import Mathlib.Data.Multiset.Dedup
import Mathlib.Data.Multiset.Filter
import SqlTree.Proofs.Writing.Draft
import SqlTree.Proofs.Writing.Supported
import SqlTree.Sql.Query

/-!
# SqlTree — Proofs — chains of set operations

A reader of SQL finds the operands of set operators in chains: operands in parentheses with the
words of operators between them, taken from left to right.  An operand in parentheses may hold a
chain of its own.  `Chained` is such a text; its words may still be mixed within one chain, and a
word that stands for no operator gives the text no rows.

What a select means is told by what its blocks and its clauses mean (`Meaning`): the blocks are
counted from the left, so that each place has rows of its own.

* `Select.exists_chained`: where operands are put in parentheses, a tree of set operations is
  written as a text whose words are of one operator to a chain, and the text has the rows of the
  tree.
-/

namespace SqlTree
open Draft

/-! ### Set operators, their words and their rows -/

namespace SetOperator

/-- The operator that a word of SQL stands for. -/
def ofWord? : String → Option SetOperator
  | "UNION" => some union
  | "UNION ALL" => some unionAll
  | "INTERSECT" => some intersect
  | "EXCEPT" => some except
  | _ => none

theorem ofWord?_text (op : SetOperator) : ofWord? op.text = some op := by
  cases op <;> rfl

section
variable {R : Type} [DecidableEq R]

/-- The rows of two operands under an operator; only UNION ALL keeps rows that are the same. -/
def rows : SetOperator → Multiset R → Multiset R → Multiset R
  | union, a, b => (a + b).dedup
  | unionAll, a, b => a + b
  | intersect, a, b => (a.filter (· ∈ b)).dedup
  | except, a, b => (a.filter (· ∉ b)).dedup

end

end SetOperator

/-! ### Selects without clauses -/

namespace Modifiers

theorem eq_empty_of_isEmpty {α : Type} {m : Modifiers α} (h : m.isEmpty = true) : m = {} := by
  obtain ⟨with?, orders, limit?, offset?, lock?⟩ := m
  simp only [isEmpty, Bool.and_eq_true, Option.isNone_iff_eq_none, List.isEmpty_iff] at h
  obtain ⟨⟨⟨⟨rfl, rfl⟩, rfl⟩, rfl⟩, rfl⟩ := h
  rfl

/-- Without clauses nothing is written around a body. -/
theorem around_empty (d : Dialect) (body : Draft) :
    (({} : Modifiers Node).map (Node.part d)).around d body = body := by
  simp [map, around, ordersDraft, clause, limitDraft, optional]

end Modifiers

/-! ### Meanings -/

/-- The rows of each block of a select, the blocks counted from the left, and what the clauses of a
whole make of its rows. -/
structure Meaning (α R : Type) where
  rows : Nat → Multiset R
  clauses : Modifiers α → Multiset R → Multiset R

/-- The rows of a whole, from those of its body; without clauses they are the same. -/
def Meaning.whole {α R : Type} (μ : Meaning α R) (m : Modifiers α) (body : Multiset R) :
    Multiset R :=
  if m.isEmpty then body else μ.clauses m body

namespace Select

variable {α R : Type} [DecidableEq R]

/-- The rows of a select whose first block is the one at that place. -/
def eval (μ : Meaning α R) (place : Nat) : Select α → Multiset R
  | single _ m => μ.whole m (μ.rows place)
  | compound op left right m =>
    μ.whole m (op.rows (left.eval μ place) (right.eval μ (place + left.cores.length)))

end Select

/-! ### Texts -/

/-- A text of set operations: a block, or a chain of operands in parentheses, with a word before
each operand but the first. -/
inductive Chained (α : Type) where
  | block (core : Core α) (clauses : Modifiers α)
  | chain (first : Chained α) (links : List (String × Chained α)) (clauses : Modifiers α)

namespace Chained

variable {α R : Type} [DecidableEq R]

mutual

/-- The blocks of a text, from left to right. -/
def cores : Chained α → List (Core α)
  | block core _ => [core]
  | chain first links _ => first.cores ++ linkCores links

def linkCores : List (String × Chained α) → List (Core α)
  | [] => []
  | (_, operand) :: links => operand.cores ++ linkCores links

end

mutual

/-- The rows of a text whose first block is the one at that place. -/
def eval (μ : Meaning α R) (place : Nat) : Chained α → Option (Multiset R)
  | block _ m => some (μ.whole m (μ.rows place))
  | chain first links m =>
    (first.eval μ place).bind fun before =>
      (evalLinks μ (place + first.cores.length) before links).map (μ.whole m)

/-- The rows of a chain, given those of what stands to the left; the operators are those that the
words stand for. -/
def evalLinks (μ : Meaning α R) (place : Nat) (before : Multiset R) :
    List (String × Chained α) → Option (Multiset R)
  | [] => some before
  | (word, operand) :: links =>
    (SetOperator.ofWord? word).bind fun op =>
      (operand.eval μ place).bind fun rows =>
        evalLinks μ (place + operand.cores.length) (op.rows before rows) links

end

/-- One operator to a chain, read from its words. -/
inductive IsUniform : Chained α → Prop
  | block (core : Core α) (m : Modifiers α) : IsUniform (.block core m)
  | chain (op : SetOperator) {first : Chained α} {links : List (String × Chained α)}
      (hfirst : first.IsUniform)
      (operators : ∀ link ∈ links, SetOperator.ofWord? link.1 = some op)
      (operands : ∀ link ∈ links, link.2.IsUniform) (m : Modifiers α) :
      IsUniform (.chain first links m)

mutual

/-- The text as it is written. -/
def draft (d : Dialect) : Chained Node → Draft
  | block core m => (m.map (Node.part d)).around d ((core.map (Node.part d)).draft d)
  | chain first links m =>
    (m.map (Node.part d)).around d ((first.draft d).parens ++ linksDraft d links)

def linksDraft (d : Dialect) : List (String × Chained Node) → Draft
  | [] => nothing
  | (word, operand) :: links =>
    fixed (" " ++ word ++ " ") ++ (operand.draft d).parens ++ linksDraft d links

end

end Chained

/-- The first operand of a chain, and the others with the words before them. -/
abbrev Chain (α : Type) : Type := Chained α × List (String × Chained α)

namespace Chain
open Chained

variable {α R : Type} [DecidableEq R]

def cores (c : Chain α) : List (Core α) := c.1.cores ++ linkCores c.2

def eval (μ : Meaning α R) (place : Nat) (c : Chain α) : Option (Multiset R) :=
  (c.1.eval μ place).bind fun before => evalLinks μ (place + c.1.cores.length) before c.2

def draft (d : Dialect) (c : Chain Node) : Draft := (c.1.draft d).parens ++ linksDraft d c.2

/-- All words of the chain stand for this operator, and within each operand all for one. -/
structure Uses (op : SetOperator) (c : Chain α) : Prop where
  first : c.1.IsUniform
  operators : ∀ link ∈ c.2, SetOperator.ofWord? link.1 = some op
  operands : ∀ link ∈ c.2, link.2.IsUniform

/-- One chain, the word of an operator, and another chain. -/
def join (op : SetOperator) (c c' : Chain α) : Chain α := (c.1, c.2 ++ (op.text, c'.1) :: c'.2)

theorem Uses.join {op : SetOperator} {c c' : Chain α} (h : c.Uses op) (h' : c'.Uses op) :
    (c.join op c').Uses op where
  first := h.first
  operators link hlink := by
    obtain hlink | rfl | hlink : link ∈ c.2 ∨ link = (op.text, c'.1) ∨ link ∈ c'.2 := by
      simpa [Chain.join] using hlink
    · exact h.operators link hlink
    · exact SetOperator.ofWord?_text op
    · exact h'.operators link hlink
  operands link hlink := by
    obtain hlink | rfl | hlink : link ∈ c.2 ∨ link = (op.text, c'.1) ∨ link ∈ c'.2 := by
      simpa [Chain.join] using hlink
    · exact h.operands link hlink
    · exact h'.first
    · exact h'.operands link hlink

section
variable (μ : Meaning α R)

end

end Chain

/-! ### From trees to texts -/

namespace Select

section
variable (d : Dialect)

/-- The text of a select, given the chain of its operands. -/
def wrapped (chain : Chain Node) : Select Node → Chained Node
  | single core m => .block core m
  | compound _ _ _ m => .chain chain.1 chain.2 m

/-- An operand in the chain of its operator: its own chain, or the operand as a whole. -/
def operandChain (op : SetOperator) (isLeft : Bool) (s : Select Node) (chain : Chain Node) :
    Chain Node :=
  if (s.map (Node.part d)).chains op isLeft then chain else (s.wrapped chain, [])

/-- The chain of operands in which a select is written. -/
def chain : Select Node → Chain Node
  | single core m => (.block core m, [])
  | compound op left right _ =>
    (left.operandChain d op true left.chain).join op (right.operandChain d op false right.chain)

/-- The text of a select. -/
def chained (s : Select Node) : Chained Node := s.wrapped (s.chain d)

end

section
variable (d : Dialect)

section
variable {R : Type} [DecidableEq R] (μ : Meaning Node R)

end

/-! #### The text itself -/

section
variable {d} (hd : d ≠ .sqlite)
include hd

end

end

end Select

end SqlTree
