import SqlTree.Proofs.Precedence.Arithmetic

/-!
# SqlTree — Proofs — the value of arithmetic in the text

A sum on the right of a sum, and a product on the right of a product, go without parentheses.  The
operators on the left side of such an operand take what stands before it, one after the other
(`Draft.Joins`).  This changes nothing as long as no quotient comes first: to divide after a
multiplication is not to divide before it.

* `Node.IsArithmetic.read_value`: where no product has a bare quotient first on its right, what is
  read has the value of the tree, and it divides by zero only if the tree does.
* `Node.IsArithmetic.read_of_quotient_first`: what is read of a product with a quotient first on its
  right has the value of another tree, which multiplies before it divides.
-/

namespace SqlTree

open Draft Precedence

/-! ### What a draft tells -/

namespace Draft

/-- The draft is read as something with the value of the tree, behind what is looser than the rank
and before what it bears. -/
def Tells (n : Nat) (a : Draft) (e : Node) : Prop :=
  ∃ p, a.Conveys usual n n p ∧ ∀ values, p.number? values = e.number? values

/-- Behind the operator the draft joins what was read before, to something with the value that the
operator has there and for the tree. -/
structure Joins (op : BinaryOperator) (a : Draft) (e : Node) : Prop where
  whole : a.IsWhole
  reads : ∀ q : Phrase, ∃ p : Phrase,
    (∀ values, p.number? values = op.combine? (q.number? values) (e.number? values)) ∧
      ∀ frames rest, waiting frames < level op.strength →
        usual.Ends (level op.strength) (usual.follow rest) →
          usual.resume (.got frames q) (.word op.text :: (a.words ++ rest)) =
            usual.resume (.got frames p) rest

variable {a b : Draft} {e e' : Node} {m n : Nat} {op op' : BinaryOperator}

theorem Tells.mono (h : a.Tells n e) (hm : m ≤ n) : a.Tells m e := by
  obtain ⟨p, conveys, same⟩ := h
  exact ⟨p, conveys.mono hm hm, same⟩

theorem Tells.parens (h : a.Tells 1 e) : a.parens.Tells n e := by
  obtain ⟨p, conveys, same⟩ := h
  exact ⟨p, conveys.parens, same⟩

/-- What is tighter than the operator joins as it is. -/
theorem Tells.joins (hop : op ∈ BinaryOperator.arithmetic) (h : a.Tells n e)
    (tight : level op.strength < n) : a.Joins op e := by
  obtain ⟨p, conveys, same⟩ := h
  obtain ⟨known, -, -⟩ := BinaryOperator.known_of_arithmetic hop
  refine ⟨conveys.whole, ?_⟩
  intro q
  refine ⟨q.join op.text p, ?_, ?_⟩
  · intro values
    rw [Phrase.number?_join values hop, same]
  · intro frames rest hwait hends
    refine resume_between known conveys.reads tight hwait ?_
    rwa [Nat.min_eq_left (Nat.le_of_lt tight)]

/-- An operator between what tells its left operand and what joins for its right one. -/
theorem Tells.binary (hop : op ∈ BinaryOperator.arithmetic) (ha : a.Tells (level op.strength) e)
    (hb : b.Joins op e') :
    (a ++ fixed (" " ++ op.text ++ " ") ++ b).Tells (level op.strength) (.binary op e e') := by
  obtain ⟨q, conveys, same⟩ := ha
  obtain ⟨known, spelled, -⟩ := BinaryOperator.known_of_arithmetic hop
  obtain ⟨p, values_eq, joined⟩ := hb.reads q
  have spells := (conveys.spells.append (.fixed spelled)).append ⟨hb.whole, rfl⟩
  rw [List.append_assoc, List.singleton_append] at spells
  refine ⟨p, .of_spells spells ?_, ?_⟩
  · intro frames rest hwait hends
    have ends : usual.Ends (level op.strength)
        (usual.follow (.word op.text :: (b.words ++ rest))) := by
      rw [follow, pull_of_between known]
      exact ends_level op.strength
    rw [List.append_assoc, List.cons_append, conveys.reads _ _ hwait ends]
    exact joined frames rest hwait hends
  · intro values
    rw [values_eq, same, Node.number?_binary]

/-- Two operands of an operator that regroups join one after the other. -/
theorem Joins.binary (regroups : op.Regroups op') (hop : op' ∈ BinaryOperator.arithmetic)
    (ha : a.Joins op e) (hb : b.Joins op' e') :
    (a ++ fixed (" " ++ op'.text ++ " ") ++ b).Joins op (.binary op' e e') := by
  obtain ⟨known, spelled, -⟩ := BinaryOperator.known_of_arithmetic hop
  have spells : (a ++ fixed (" " ++ op'.text ++ " ") ++ b).Spells []
      (a.words ++ [.word op'.text] ++ b.words) :=
    (Spells.append ⟨ha.whole, rfl⟩ (.fixed spelled)).append ⟨hb.whole, rfl⟩
  rw [List.append_assoc, List.singleton_append] at spells
  refine ⟨spells.whole, ?_⟩
  intro q
  obtain ⟨p, first, joined⟩ := ha.reads q
  obtain ⟨p', second, joined'⟩ := hb.reads p
  refine ⟨p', ?_, ?_⟩
  · intro values
    rw [second, first, regroups.combine?_assoc, Node.number?_binary]
  · intro frames rest hwait hends
    have same_level := BinaryOperator.level_of_regroups regroups
    have ends : usual.Ends (level op.strength)
        (usual.follow (.word op'.text :: (b.words ++ rest))) := by
      rw [follow, pull_of_between known, ← same_level]
      exact ends_level op.strength
    rw [words, spells.tokens, List.append_assoc, List.cons_append, joined _ _ hwait ends]
    rw [same_level] at hwait hends
    exact joined' frames rest hwait hends

end Draft

/-! ### What the induction carries -/

namespace Node

/-- The operators of the tree that are not in parentheses go on where the operator stands before
them. -/
def Continues (op : BinaryOperator) (e : Node) : Prop :=
  op = .addition ∧ e.strength = Strength.additive ∨
    op = .multiplication ∧ e.strength = Strength.multiplicative ∧ e.quotientFirst = false

/-- The tree is read with its value, and it joins an operator that it continues. -/
structure Told (e : Node) : Prop where
  tells : (e.draft .generic .item).Tells (level e.strength) e
  joins : ∀ op, e.Continues op → (e.draft .generic .item).Joins op e

theorem Continues.strength_eq {op : BinaryOperator} {e : Node} (h : e.Continues op) :
    e.strength = op.strength := by
  obtain ⟨rfl, strength⟩ | ⟨rfl, strength, -⟩ := h <;> exact strength

namespace Told

variable {e left right : Node} {least : Nat} {op : BinaryOperator}

theorem of_atom (atom : e.strength = Strength.atom)
    (tells : (e.draft .generic .item).Tells (level Strength.atom) e) : e.Told := by
  refine ⟨by rwa [atom], ?_⟩
  intro op continues
  obtain ⟨-, strength⟩ | ⟨-, strength, -⟩ := continues <;>
    exact absurd (atom.symm.trans strength) (by decide)

/-- An operand is in parentheses, or else it is strong enough to stand bare. -/
theorem operand_tells (h : e.Told) (least : Nat) :
    ((e.part .generic).operand least).Tells (level least) e := by
  unfold Part.operand
  split
  · exact (h.tells.mono (one_le_level _)).parens
  · next strong => exact h.tells.mono (level_le (Nat.le_of_not_lt strong))

theorem operand_joins (hop : op ∈ BinaryOperator.arithmetic) (h : e.Told)
    (bare : least ≤ e.strength → op.strength < e.strength ∨ e.Continues op) :
    ((e.part .generic).operand least).Joins op e := by
  obtain ⟨-, -, tighter⟩ := BinaryOperator.known_of_arithmetic hop
  unfold Part.operand
  split
  · exact (h.tells.mono (one_le_level _)).parens.joins hop tighter
  · next strong =>
      obtain looser | continues := bare (Nat.le_of_not_lt strong)
      · exact h.tells.joins hop (Nat.lt_of_lt_of_le tighter (level_le looser))
      · exact h.joins op continues

/-! ### One case for each way to build a tree -/

theorem column (c : Column) (single : c.isStar = false) : (of (.column c)).Told := by
  refine of_atom rfl ⟨.between "." (.name c.table.qualifier) (.name c.name), ?_, ?_⟩
  · have spells : c.draft.Spells []
        ([.name c.table.qualifier] ++ .word "." :: [.name c.name]) := by
      rw [Column.draft, single]
      exact ((Spells.ident _).append (.fixed rfl)).append (.ident c.name)
    refine .of_spells spells ?_
    have known : usual.between? "." = some 3 := rfl
    exact Reads.between (l := 3) (r := 3) known (.name _) (.inl (Nat.lt_succ_self 3)) (.name _)
      (Nat.lt_succ_self 3)
  · intro values
    rw [number?_column]
    rfl

theorem grouping (h : e.Told) : e.grouping.Told := by
  refine of_atom rfl ?_
  have draft : e.grouping.draft .generic .item = (e.part .generic).enclosed := by
    rw [Node.grouping, unary, draft_item]
    rfl
  have enclosed : (e.part .generic).enclosed.Tells (level Strength.atom) e := by
    unfold Part.enclosed
    split
    -- what stands in parentheses of its own is an atom
    · next closed =>
        have atom : e.strength = Strength.atom := by
          obtain ⟨form⟩ := e
          cases form with
          | unary op _ => cases op <;> first | rfl | cases closed
          | select _ => rfl
          | _ => cases closed
        have tells := h.tells
        rwa [atom] at tells
    · exact (h.tells.mono (one_le_level _)).parens
  obtain ⟨p, conveys, same⟩ := enclosed
  rw [draft]
  exact ⟨p, conveys, fun values => (same values).trans (number?_grouping values e).symm⟩

section
variable (hop : op ∈ BinaryOperator.arithmetic) (hleft : left.Told) (hright : right.Told)
  (kept : (Node.binary op left right).losesQuotient = false)
include hop hright kept

/-- The right operand is in parentheses, or it is tighter, or it continues the operator. -/
theorem right_joins : ((right.part .generic).operand (rightLeast op right)).Joins op right := by
  refine hright.operand_joins hop ?_
  intro strong
  unfold rightLeast at strong
  split at strong
  · next same =>
      rw [Bool.and_eq_true, beq_iff_eq] at same
      obtain ⟨associative, root⟩ := same
      refine .inr ?_
      have strength : right.strength = op.strength := by
        obtain ⟨form⟩ := right
        cases form with
        | binary op' _ _ =>
            obtain rfl : op' = op := Option.some.inj root
            rfl
        | _ => cases root
      simp only [BinaryOperator.arithmetic, List.mem_cons, List.not_mem_nil, or_false] at hop
      obtain rfl | rfl | rfl | rfl := hop
      · exact .inl ⟨rfl, strength⟩
      · cases associative
      · refine .inr ⟨rfl, strength, ?_⟩
        have lost : (right.operator? == some .multiplication && right.quotientFirst) = false := kept
        rwa [root, beq_self_eq_true, Bool.true_and] at lost
      · cases associative
  · exact .inl strong

include hleft

/-- **An operator joins what it continues** with its left operand first. -/
theorem binary_joins (op' : BinaryOperator)
    (continues : (Node.binary op left right).Continues op') :
    ((Node.binary op left right).draft .generic .item).Joins op' (Node.binary op left right) := by
  have strength : op.strength = op'.strength := continues.strength_eq
  have regroups : op'.Regroups op ∧
      (left.strength = op'.strength → left.Continues op') := by
    simp only [BinaryOperator.arithmetic, List.mem_cons, List.not_mem_nil, or_false] at hop
    obtain ⟨rfl, -⟩ | ⟨rfl, -, first⟩ := continues
    · refine ⟨.inl ⟨rfl, ?_⟩, fun same => .inl ⟨rfl, same⟩⟩
      obtain rfl | rfl | rfl | rfl := hop
      · exact .inl rfl
      · exact .inr rfl
      · cases strength
      · cases strength
    · have product : op = .multiplication := by
        obtain rfl | rfl | rfl | rfl := hop
        · cases strength
        · cases strength
        · rfl
        · rw [quotientFirst_of_quotient] at first
          cases first
      subst product
      rw [quotientFirst_of_product] at first
      exact ⟨.inr ⟨rfl, rfl⟩, fun same => .inr ⟨rfl, same, first⟩⟩
  obtain ⟨regroups, goes_on⟩ := regroups
  have member : op' ∈ BinaryOperator.arithmetic := by
    obtain ⟨rfl, -⟩ | ⟨rfl, -⟩ := regroups <;> decide
  have first : ((left.part .generic).operand op.strength).Joins op' left := by
    refine hleft.operand_joins member ?_
    intro strong
    rw [strength] at strong
    obtain looser | same := Nat.lt_or_eq_of_le strong
    · exact .inl looser
    · exact .inr (goes_on same.symm)
  rw [arithmetic_draft hop]
  exact first.binary regroups hop (hright.right_joins hop kept)

theorem binary : (Node.binary op left right).Told := by
  refine ⟨?_, hleft.binary_joins hop hright kept⟩
  rw [arithmetic_draft hop]
  exact (hleft.operand_tells op.strength).binary hop (hright.right_joins hop kept)

end

end Told

/-! ### All of arithmetic -/

namespace IsArithmetic

variable {e a b c d : Node}

theorem isSelect_eq_false (h : e.IsArithmetic) : e.isSelect = false := by
  cases h <;> rfl

theorem told (h : e.IsArithmetic) (kept : e.KeepsQuotients) : e.Told := by
  induction h with
  | column c single => exact .column c single
  | @binary op left right hop _ _ ihl ihr =>
      have hleft : left.Told := ihl (kept.of_mem_parts List.mem_cons_self)
      have hright : right.Told :=
        ihr (kept.of_mem_parts (List.mem_cons_of_mem _ List.mem_cons_self))
      exact .binary hop hleft hright (kept _ (self_mem_subtrees _))
  | grouping _ ih => exact (ih (kept.of_mem_parts List.mem_cons_self)).grouping

/-- Only a select is written otherwise as a statement. -/
theorem draft_statement (h : e.IsArithmetic) :
    e.draft .generic .statement = e.draft .generic .item :=
  draft_statement_eq_item .generic h.isSelect_eq_false

/-- What a draft tells is what its tokens are read as. -/
theorem read_of_tells {n : Nat} {e' : Node} (h : e.IsArithmetic)
    (tells : (e.draft .generic .item).Tells n e') (positive : 1 ≤ n) :
    (e.draft .generic .statement).IsWhole ∧
      ∃ p, usual.read (e.draft .generic .statement).words = some p ∧
        ∀ values, p.number? values = e'.number? values := by
  obtain ⟨p, conveys, same⟩ := tells
  rw [h.draft_statement]
  exact ⟨conveys.whole, p, conveys.reads.read positive positive, same⟩

/-- **Arithmetic keeps its value** when it is written and read again, if no product has a bare
quotient first on its right: what is read has the value of the tree, for any values of the columns,
and divides by zero only if the tree does. -/
theorem read_value (h : e.IsArithmetic) (kept : e.KeepsQuotients) :
    (e.draft .generic .statement).IsWhole ∧
      ∃ p, usual.read (e.draft .generic .statement).words = some p ∧
        ∀ values, p.number? values = e.number? values :=
  h.read_of_tells (h.told kept).tells (one_le_level _)

/-- Sums and products that go without parentheses on the right. -/
theorem read_value_of_nested :
    ∃ e : Node, e = Node.binary .addition (.column ⟨{ name := "t" }, "a"⟩)
        (.binary .addition
          (.binary .subtraction (.column ⟨{ name := "t" }, "b"⟩) (.column ⟨{ name := "t" }, "c"⟩))
          (.binary .multiplication (.column ⟨{ name := "t" }, "a"⟩)
            (.binary .multiplication (.column ⟨{ name := "t" }, "b"⟩)
              (.column ⟨{ name := "t" }, "c"⟩)))) ∧
      ∃ p, usual.read (e.draft .generic .statement).words = some p ∧
        ∀ values, p.number? values = e.number? values := by
  have leaf (name : String) (single : (⟨{ name := "t" }, name⟩ : Column).isStar = false) :
      (Node.column ⟨{ name := "t" }, name⟩).IsArithmetic := .column _ single
  have ha := leaf "a" rfl
  have hb := leaf "b" rfl
  have hc := leaf "c" rfl
  have sum : BinaryOperator.addition ∈ BinaryOperator.arithmetic := by decide
  have difference : BinaryOperator.subtraction ∈ BinaryOperator.arithmetic := by decide
  have product : BinaryOperator.multiplication ∈ BinaryOperator.arithmetic := by decide
  have arithmetic := IsArithmetic.binary sum ha (.binary sum (.binary difference hb hc)
    (.binary product ha (.binary product hb hc)))
  exact ⟨_, rfl, (arithmetic.read_value (keepsQuotients_of_all rfl)).2⟩

/-- **A product with a quotient first on its right** is read as if the quotient came last: the
numerator is multiplied before it is divided. -/
theorem read_of_quotient_first (ha : a.IsArithmetic) (hb : b.IsArithmetic) (hc : c.IsArithmetic)
    (hd : d.IsArithmetic) (kept_left : a.KeepsQuotients)
    (kept_right : (Node.binary .multiplication (.binary .division b c) d).KeepsQuotients)
    (first : b.quotientFirst = false) :
    ∃ p, usual.read ((Node.binary .multiplication a
          (.binary .multiplication (.binary .division b c) d)).draft .generic .statement).words =
        some p ∧
      ∀ values, p.number? values =
        (Node.binary .multiplication (.binary .division (.binary .multiplication a b) c) d).number?
          values := by
  have product : BinaryOperator.multiplication ∈ BinaryOperator.arithmetic := by decide
  have quotient : BinaryOperator.division ∈ BinaryOperator.arithmetic := by decide
  have kept_quotient : (Node.binary .division b c).KeepsQuotients :=
    kept_right.of_mem_parts List.mem_cons_self
  have ta := ha.told kept_left
  have tb := hb.told (kept_quotient.of_mem_parts List.mem_cons_self)
  have tc := hc.told (kept_quotient.of_mem_parts (List.mem_cons_of_mem _ List.mem_cons_self))
  have td := hd.told (kept_right.of_mem_parts (List.mem_cons_of_mem _ List.mem_cons_self))
  have numerator : ((b.part .generic).operand Strength.multiplicative).Joins .multiplication b := by
    refine tb.operand_joins product ?_
    intro strong
    obtain looser | same := Nat.lt_or_eq_of_le strong
    · exact .inl looser
    · exact .inr (.inr ⟨rfl, same.symm, first⟩)
  have denominator := tc.right_joins quotient
    (show (Node.binary .division b c).losesQuotient = false from rfl)
  have factor := td.right_joins product
    (kept_right _ (self_mem_subtrees _))
  have tells := (((ta.operand_tells Strength.multiplicative).binary product numerator).binary
    quotient denominator).binary product factor
  have right : ((Node.binary .multiplication (.binary .division b c) d).part .generic).operand
        (rightLeast .multiplication (.binary .multiplication (.binary .division b c) d)) =
      (Node.binary .division b c).draft .generic .item ++ fixed " * " ++
        (d.part .generic).operand (rightLeast .multiplication d) := arithmetic_draft product _ d
  have draft : (Node.binary .multiplication a
        (.binary .multiplication (.binary .division b c) d)).draft .generic .item =
      (a.part .generic).operand Strength.multiplicative ++ fixed " * " ++
        (b.part .generic).operand Strength.multiplicative ++ fixed " / " ++
          (c.part .generic).operand (rightLeast .division c) ++ fixed " * " ++
            (d.part .generic).operand (rightLeast .multiplication d) := by
    rw [arithmetic_draft product, right, arithmetic_draft quotient]
    simp only [append_assoc]
    rfl
  have arithmetic : (Node.binary .multiplication a
      (.binary .multiplication (.binary .division b c) d)).IsArithmetic :=
    .binary product ha (.binary product (.binary quotient hb hc) hd)
  refine (arithmetic.read_of_tells ?_ (one_le_level BinaryOperator.multiplication.strength)).2
  rw [draft]
  exact tells

/-- Two times the half of one, which is nothing, is read as the half of two. -/
theorem not_read_value :
    ∃ e : Node, e = Node.binary .multiplication (.column ⟨{ name := "t" }, "a"⟩)
        (.binary .multiplication
          (.binary .division (.column ⟨{ name := "t" }, "b"⟩) (.column ⟨{ name := "t" }, "c"⟩))
          (.column ⟨{ name := "t" }, "d"⟩)) ∧
      e.IsArithmetic ∧
      ∃ p, usual.read (e.draft .generic .statement).words = some p ∧
        ∃ values : ColumnValues, e.number? values = some 0 ∧ p.number? values = some 1 := by
  have leaf (name : String) (single : (⟨{ name := "t" }, name⟩ : Column).isStar = false) :
      (Node.column ⟨{ name := "t" }, name⟩).IsArithmetic := .column _ single
  have ha := leaf "a" rfl
  have hb := leaf "b" rfl
  have hc := leaf "c" rfl
  have hd := leaf "d" rfl
  obtain ⟨p, read, same⟩ := read_of_quotient_first ha hb hc hd (keepsQuotients_of_all rfl)
    (keepsQuotients_of_all rfl) rfl
  refine ⟨_, rfl, .binary (by decide) ha (.binary (by decide) (.binary (by decide) hb hc) hd), p,
    read, fun _ name => if name = "a" ∨ name = "c" then 2 else 1, rfl, ?_⟩
  rw [same]
  rfl

end IsArithmetic

end Node

end SqlTree
