import SqlTree.Proofs.Writing.Draft
import SqlTree.Sql.Query

/-!
# SqlTree — Proofs — lists as operands

A list binds as tightly as an atom, so no operand place puts it in parentheses for being too loose.
A place that encloses it does so by itself: the right side of IN, and the operators that are
parentheses (`Site.encloses`).  At every other place of an operand the items of a list stand bare,
and whoever reads the text takes the commas for those of the list around; a grouping around the list
gives it its one pair of parentheses everywhere.

* `Site.draft_fill`: what is written at every place of an operand for a list, by itself and in a
  grouping.
-/

namespace SqlTree
open Draft

/-! ### Places of operands -/

/-- An expression with a hole in the place of one operand. -/
inductive Site where
  | unary (op : UnaryOperator)
  | leftOf (op : BinaryOperator) (right : Node)
  | rightOf (op : BinaryOperator) (left : Node)
  /-- The lower bound of BETWEEN. -/
  | lowerBound (subject high : Node)
  | upperBound (subject low : Node)
  | matched (pattern : Node) (escape? : Option String) (caseSensitive negated : Bool)
  | patternOf (subject : Node) (escape? : Option String) (caseSensitive negated : Bool)
  | regexpMatched (pattern : Node) (caseSensitive negated : Bool)
  | regexpOf (subject : Node) (caseSensitive negated : Bool)
  /-- What is computed over a window. -/
  | windowed (w : WindowRef Node)

namespace Site

/-- The expression with its hole filled. -/
def fill : Site → Node → Node
  | unary op, e => .of (.unary op e)
  | leftOf op right, e => .of (.binary op e right)
  | rightOf op left, e => .of (.binary op left e)
  | lowerBound subject high, e => .of (.binary .between subject (.of (.and [e, high])))
  | upperBound subject low, e => .of (.binary .between subject (.of (.and [low, e])))
  | matched pattern escape? sensitive negated, e =>
    .of (.matching e pattern escape? sensitive negated)
  | patternOf subject escape? sensitive negated, e =>
    .of (.matching subject e escape? sensitive negated)
  | regexpMatched pattern sensitive negated, e => .of (.regexp e pattern sensitive negated)
  | regexpOf subject sensitive negated, e => .of (.regexp subject e sensitive negated)
  | windowed w, e => .of (.windowed e w)

/-- The place has parentheses for a list. -/
def encloses : Site → Bool
  | unary op =>
    match op with
    | .grouping | .cube | .rollup | .groupingSet => true
    | .not | .lateral | .bin | .leading _ => false
  | rightOf .isIn _ | rightOf .isNotIn _ => true
  | _ => false

/-- The operand is written, and not as an argument of a function. -/
def isWritten (d : Dialect) : Site → Bool
  | leftOf .concat _ | rightOf .concat _ => d != .mysql
  | leftOf .isIn members | leftOf .isNotIn members => !(members.part d).isEmptyList
  | _ => true

end Site

/-! ### What goes before -/

/-- The draft comes to the end with a parenthesis that it opens. -/
def Draft.Opens (a : Draft) : Prop := a.IsWhole ∧ a.lexemes.getLast? = some .opening

namespace Draft

/-- Nothing is open behind a lexeme that opens nothing. -/
theorem not_opens_append_lexeme {l : Lexeme} (h : l ≠ .opening) (a : Draft) :
    ¬ (a ++ (⟨[l], none⟩ : Draft)).Opens := by
  rintro ⟨whole, last⟩
  rw [lexemes_append _ (isWhole_append.mp whole).1, List.getLast?_append] at last
  exact h (Option.some.inj last)

theorem not_opens_append_fixed (a : Draft) (text : String) : ¬ (a ++ fixed text).Opens :=
  not_opens_append_lexeme (by simp) a

theorem not_opens_fixed (text : String) : ¬ (fixed text).Opens :=
  not_opens_append_fixed nothing text

theorem not_opens_append {a b : Draft} (ha : ¬ a.Opens) (hb : ¬ b.Opens) : ¬ (a ++ b).Opens := by
  rintro ⟨whole, last⟩
  obtain ⟨whole_a, whole_b⟩ := isWhole_append.mp whole
  rw [lexemes_append _ whole_a, List.getLast?_append, Option.or_eq_some_iff] at last
  rcases last with last | ⟨-, last⟩
  · exact hb ⟨whole_b, last⟩
  · exact ha ⟨whole_a, last⟩

theorem not_opens_append_sign (a : Draft) (d : Dialect) (op : BinaryOperator) :
    ¬ (a ++ op.sign d).Opens := by
  cases op with
  | custom text =>
      rw [BinaryOperator.sign, ← append_assoc]
      exact not_opens_append_fixed _ _
  | _ => exact not_opens_append_fixed _ _

end Draft

/-! ### Parts that are never too loose -/

/-- The part is written as `a` wherever it stands as an operand, and nothing special is done for
it. -/
structure Part.StandsAs (p : Part) (a : Draft) : Prop where
  item : p.item = a
  strength : p.node.strength = Strength.atom
  isNull : p.node.isNull = false
  operator? : p.node.operator? = none
  bounds : p.bounds = a
  target : p.target = a

theorem Part.StandsAs.operand {p : Part} {a : Draft} {least : Nat} (h : p.StandsAs a)
    (hl : least ≤ Strength.atom) : p.operand least = a := by
  rw [Part.operand, h.strength, if_neg (Nat.not_lt.mpr hl), h.item]

namespace Node

section
variable (d : Dialect) (items : List Node)

theorem item_list : ((of (.list items)).part d).item = Part.list (items.map (part d)) := by
  rw [Part.item, part, draft_of]
  rfl

theorem item_grouping_list : ((of (.unary .grouping (of (.list items)))).part d).item =
    (Part.list (items.map (part d))).parens := by
  rw [Part.item, part, draft_of]
  exact congrArg parens (item_list d items)

theorem standsAs_list : ((of (.list items)).part d).StandsAs (Part.list (items.map (part d))) :=
  ⟨item_list d items, rfl, rfl, rfl, item_list d items, item_list d items⟩

theorem standsAs_grouping_list : ((of (.unary .grouping (of (.list items)))).part d).StandsAs
    (Part.list (items.map (part d))).parens :=
  ⟨item_grouping_list d items, rfl, rfl, rfl, item_grouping_list d items,
    item_grouping_list d items⟩

theorem element_list : ((of (.list items)).part d).element = Part.list (items.map (part d)) := by
  rw [Part.element, part, draft_of]
  rfl

/-- An element does without the parentheses of a grouping. -/
theorem element_grouping_list : ((of (.unary .grouping (of (.list items)))).part d).element =
    Part.list (items.map (part d)) := by
  rw [Part.element, part, draft_of]
  exact item_list d items

end

end Node

/-! ### What is written around an operand -/

/-- What is written for a part is the part between two drafts that do not depend on it, and no
parenthesis is opened just before it. -/
def Draft.Around (write : Part → Draft) : Prop :=
  ∃ before after : Draft, ¬ before.Opens ∧
    ∀ {p : Part} {a : Draft}, p.StandsAs a → write p = before ++ a ++ after

namespace Draft.Around

variable {write write' : Part → Draft}

theorem of_standsAs (h : ∀ {p : Part} {a : Draft}, p.StandsAs a → write p = a) : Around write :=
  ⟨nothing, nothing, nofun, fun hp => by rw [h hp, append_nothing, nothing_append]⟩

theorem operand {least : Nat} (h : least ≤ Strength.atom) : Around (Part.operand least) :=
  of_standsAs fun hp => hp.operand h

/-- Nothing comes before an error. -/
theorem fail (e : Error) : Around fun _ => Draft.fail e :=
  ⟨Draft.fail e, nothing, nofun, fun _ => rfl⟩

theorem congr (h : Around write)
    (same : ∀ {p : Part} {a : Draft}, p.StandsAs a → write' p = write p) : Around write' := by
  obtain ⟨before, after, bare, written⟩ := h
  exact ⟨before, after, bare, fun hp => (same hp).trans (written hp)⟩

theorem append_right (h : Around write) (b : Draft) : Around fun p => write p ++ b := by
  obtain ⟨before, after, bare, written⟩ := h
  refine ⟨before, after ++ b, bare, fun hp => ?_⟩
  simp only [written hp, append_assoc]

theorem append_left (h : Around write) {b : Draft} (hb : ¬ b.Opens) :
    Around fun p => b ++ write p := by
  obtain ⟨before, after, bare, written⟩ := h
  refine ⟨b ++ before, after, not_opens_append hb bare, fun hp => ?_⟩
  simp only [written hp, append_assoc]

end Draft.Around

namespace BinaryOperator

variable (d : Dialect) (op : BinaryOperator) (q : Part)

theorem around_spread_left (hop : op.strength < Strength.atom) :
    Around fun p => op.spread d p q := by
  have least : (if op.isComparison then op.strength + 1 else op.strength) ≤ Strength.atom := by
    split <;> omega
  exact ((Around.operand least).append_right _).append_right _

theorem around_spread_right (hop : op.strength < Strength.atom) :
    Around fun p => op.spread d q p := by
  let least := if op.isComparison then op.strength + 1 else op.strength
  have bare := not_opens_append_sign (q.operand least) d op
  refine ((Around.operand hop).append_left bare).congr fun hp => ?_
  rw [spread, hp.operator?]
  simp [least]

theorem around_null (negated : Bool) : Around (nullDraft negated) :=
  (Around.operand (by decide)).append_right _

theorem around_distinct_left (negated : Bool) : Around fun p => distinctDraft d negated p q := by
  have operand : Around (Part.operand Strength.compared) := .operand (by decide)
  cases d with
  | mysql =>
      refine ((operand.append_left (b := onlyIf (!negated) (fixed "NOT ")) ?_).append_right
        _).append_right _
      cases negated with
      | true => exact nofun
      | false => exact not_opens_fixed _
  | _ => exact (operand.append_right _).append_right _

theorem around_distinct_right (negated : Bool) : Around fun p => distinctDraft d negated q p := by
  have operand : Around (Part.operand Strength.compared) := .operand (by decide)
  cases d <;> exact operand.append_left (not_opens_append_fixed _ _)

/-- The operand on the left of an operator. -/
theorem around_left (called : op = .concat → d ≠ .mysql)
    (members : op = .isIn ∨ op = .isNotIn → q.isEmptyList = false) :
    Around fun p => op.draft d p q := by
  cases op with
  | equality | notEqual =>
      simp only [draft]
      split
      · exact around_null _
      · exact around_spread_left d _ q (by decide)
  | isNotDistinctFrom | isDistinctFrom =>
      simp only [draft]
      split
      · exact around_null _
      · exact around_distinct_left d q _
  | isIn | isNotIn =>
      simp only [draft, membershipDraft, members (by simp), Bool.false_eq_true, if_false]
      exact ((Around.operand (by decide)).append_right _).append_right _
  | between => exact ((Around.operand (by decide)).append_right _).append_right _
  | concat =>
      refine (around_spread_left d .concat q (by decide)).congr fun _ => ?_
      cases d with
      | mysql => exact absurd rfl (called rfl)
      | _ => rfl
  | named => exact ((Around.of_standsAs Part.StandsAs.item).append_right _).append_right _
  | assignment => exact ((Around.of_standsAs Part.StandsAs.target).append_right _).append_right _
  | filter => exact ((Around.operand (Nat.le_refl _)).append_right _).append_right _
  | _ => exact around_spread_left d _ q (by rw [strength]; decide)

/-- The operand on the right of an operator, other than the members of IN. -/
theorem around_right (called : op = .concat → d ≠ .mysql) (isIn : op ≠ .isIn)
    (isNotIn : op ≠ .isNotIn) : Around fun p => op.draft d q p := by
  have item : Around Part.item := .of_standsAs Part.StandsAs.item
  cases op with
  | equality =>
      refine (around_spread_right d .equality q (by decide)).congr fun hp => ?_
      rw [draft, hp.isNull, if_neg Bool.false_ne_true]
  | notEqual =>
      refine (around_spread_right d .notEqual q (by decide)).congr fun hp => ?_
      rw [draft, hp.isNull, if_neg Bool.false_ne_true]
  | isNotDistinctFrom =>
      refine (around_distinct_right d q true).congr fun hp => ?_
      rw [draft, hp.isNull, if_neg Bool.false_ne_true]
  | isDistinctFrom =>
      refine (around_distinct_right d q false).congr fun hp => ?_
      rw [draft, hp.isNull, if_neg Bool.false_ne_true]
  | isIn => exact absurd rfl isIn
  | isNotIn => exact absurd rfl isNotIn
  | between =>
      exact (Around.of_standsAs Part.StandsAs.bounds).append_left (not_opens_append_fixed _ _)
  | concat =>
      refine (around_spread_right d .concat q (by decide)).congr fun _ => ?_
      cases d with
      | mysql => exact absurd rfl (called rfl)
      | _ => rfl
  | named | assignment => exact item.append_left (not_opens_append_fixed _ _)
  | filter =>
      -- a word comes first in the parentheses of the condition
      have condition : Around fun p => (fixed "WHERE " ++ p.item).parens := by
        have opened := not_opens_append_fixed ⟨[.opening], none⟩ "WHERE "
        refine ((item.append_left opened).append_right ⟨[.closing], none⟩).congr fun _ => ?_
        simp only [parens, append_assoc]
      exact condition.append_left (not_opens_append_fixed _ _)
  | _ => exact around_spread_right d _ q (by rw [strength]; decide)

end BinaryOperator

theorem UnaryOperator.around (d : Dialect) (op : UnaryOperator)
    (h : (Site.unary op).encloses = false) : Around (op.draft d) := by
  cases op with
  | grouping | cube | rollup | groupingSet => cases h
  | not | lateral => exact (Around.operand (by decide)).append_left (not_opens_fixed _)
  | leading text =>
      exact (Around.operand (by decide)).append_left
        (not_opens_append_lexeme (by simp) nothing)
  | bin =>
      cases d with
      | mysql => exact (Around.operand (by decide)).append_left (not_opens_fixed _)
      | _ => exact .of_standsAs Part.StandsAs.item

section
variable (d : Dialect) (q : Part) (sensitive negated : Bool)

theorem around_matched (escape? : Option String) :
    Around fun p => matchingDraft d p q escape? sensitive negated :=
  (((Around.operand (by decide)).append_right _).append_right _).append_right _

theorem around_pattern (escape? : Option String) :
    Around fun p => matchingDraft d q p escape? sensitive negated :=
  ((Around.operand (by decide)).append_left (not_opens_append_fixed _ _)).append_right _

theorem around_regexpMatched : Around fun p => regexpDraft d p q sensitive negated := by
  unfold regexpDraft
  split
  · exact ((Around.operand (by decide)).append_right _).append_right _
  · exact .fail _

theorem around_regexp : Around fun p => regexpDraft d q p sensitive negated := by
  unfold regexpDraft
  split
  · exact (Around.operand (by decide)).append_left (not_opens_append_fixed _ _)
  · exact .fail _

end

/-! ### What is written at a place -/

namespace Site

variable (d : Dialect)

/-- What is written for the expression, given the operand. -/
def draft : Site → Part → Draft
  | unary op, p => op.draft d p
  | leftOf op right, p => op.draft d p (right.part d)
  | rightOf op left, p => op.draft d (left.part d) p
  | lowerBound subject high, p =>
    (subject.part d).operand Strength.compared ++ fixed " BETWEEN " ++ boundsDraft p (high.part d)
  | upperBound subject low, p =>
    (subject.part d).operand Strength.compared ++ fixed " BETWEEN " ++ boundsDraft (low.part d) p
  | matched pattern escape? sensitive negated, p =>
    matchingDraft d p (pattern.part d) escape? sensitive negated
  | patternOf subject escape? sensitive negated, p =>
    matchingDraft d (subject.part d) p escape? sensitive negated
  | regexpMatched pattern sensitive negated, p =>
    regexpDraft d p (pattern.part d) sensitive negated
  | regexpOf subject sensitive negated, p => regexpDraft d (subject.part d) p sensitive negated
  | windowed w, p => overDraft p (w.map (Node.part d))

theorem bounds_and (low high : Node) : ((Node.of (.and [low, high])).part d).bounds =
    boundsDraft (low.part d) (high.part d) := by
  show (Node.of (.and [low, high])).draft d .bounds = _
  rw [Node.draft_of]
  rfl

theorem draft_fill_eq (s : Site) (e : Node) : (s.fill e).draft d .item = s.draft d (e.part d) := by
  cases s with
  | lowerBound subject high =>
      rw [fill, Node.draft_of, Form.draft_item]
      exact congrArg (_ ++ ·) (bounds_and d e high)
  | upperBound subject low =>
      rw [fill, Node.draft_of, Form.draft_item]
      exact congrArg (_ ++ ·) (bounds_and d low e)
  | _ =>
      rw [fill, Node.draft_of, Form.draft_item]
      rfl

/-- No place but those that enclose a list puts parentheses around the operand. -/
theorem around {s : Site} (written : s.isWritten d = true) (h : s.encloses = false) :
    Around (s.draft d) := by
  have compared : Around (Part.operand Strength.compared) := .operand (by decide)
  cases s with
  | unary op => exact op.around d h
  | leftOf op right =>
      refine op.around_left d (right.part d) (fun concat => ?_) fun membership => ?_
      · subst concat
        simpa [isWritten] using written
      · rcases membership with rfl | rfl <;> simpa [isWritten] using written
  | rightOf op left =>
      refine op.around_right d (left.part d) (fun concat => ?_) (fun isIn => ?_) fun isNotIn => ?_
      · subst concat
        simpa [isWritten] using written
      · subst isIn
        cases h
      · subst isNotIn
        cases h
  | lowerBound subject high =>
      exact ((compared.append_right _).append_right _).append_left (not_opens_append_fixed _ _)
  | upperBound subject low =>
      refine (compared.append_left (b := _ ++ fixed " AND ") ?_).append_left
        (not_opens_append_fixed _ _)
      exact not_opens_append_fixed _ _
  | matched pattern escape? sensitive negated => exact around_matched d _ sensitive negated escape?
  | patternOf subject escape? sensitive negated =>
      exact around_pattern d _ sensitive negated escape?
  | regexpMatched pattern sensitive negated => exact around_regexpMatched d _ sensitive negated
  | regexpOf subject sensitive negated => exact around_regexp d _ sensitive negated
  | windowed w => exact ((Around.operand (Nat.le_refl _)).append_right _).append_right _

section
variable (items : List Node)

theorem elementDraft_eq (keyword : String) :
    elementDraft keyword ((Node.of (.list items)).part d) =
        fixed keyword ++ (Part.list (items.map (Node.part d))).parens ∧
      elementDraft keyword ((Node.of (.unary .grouping (.of (.list items)))).part d) =
        fixed keyword ++ (Part.list (items.map (Node.part d))).parens := by
  rw [elementDraft, elementDraft, Node.element_list, Node.element_grouping_list]
  exact ⟨rfl, rfl⟩

theorem membershipDraft_eq (negated : Bool) (q : Part) (h : items ≠ []) :
    let before := q.operand Strength.compared ++ fixed (if negated then " NOT IN " else " IN ")
    membershipDraft negated q ((Node.of (.list items)).part d) =
        before ++ (Part.list (items.map (Node.part d))).parens ∧
      membershipDraft negated q ((Node.of (.unary .grouping (.of (.list items)))).part d) =
        before ++ (Part.list (items.map (Node.part d))).parens := by
  obtain ⟨item, rest, rfl⟩ := List.exists_cons_of_ne_nil h
  intro before
  refine ⟨congrArg (fun listed => before ++ parens listed) ?_, congrArg (before ++ ·) ?_⟩
  · exact Node.item_list d _
  · exact (Node.standsAs_grouping_list d _).operand (Nat.le_refl _)

end

/-- Where a list is enclosed, a grouping adds nothing. -/
theorem exists_enclosed {s : Site} (h : s.encloses = true) :
    ∃ before : Draft, ¬ before.Opens ∧ ∀ items : List Node, items ≠ [] →
      let enclosed := (Part.list (items.map (Node.part d))).parens
      s.draft d ((Node.of (.list items)).part d) = before ++ enclosed ∧
        s.draft d ((Node.of (.unary .grouping (.of (.list items)))).part d) =
          before ++ enclosed := by
  cases s with
  | unary op =>
      cases op with
      | grouping =>
          refine ⟨nothing, nofun, fun items _ => ⟨?_, ?_⟩⟩
          · exact congrArg parens (Node.item_list d items)
          · exact Node.item_grouping_list d items
      | cube => exact ⟨_, not_opens_fixed "CUBE", fun items _ => elementDraft_eq d items _⟩
      | rollup => exact ⟨_, not_opens_fixed "ROLLUP", fun items _ => elementDraft_eq d items _⟩
      | groupingSet =>
          exact ⟨_, not_opens_fixed "GROUPING SETS", fun items _ => elementDraft_eq d items _⟩
      | _ => cases h
  | rightOf op left =>
      cases op with
      | isIn =>
          exact ⟨_, not_opens_append_fixed _ _, fun items => membershipDraft_eq d items false _⟩
      | isNotIn =>
          exact ⟨_, not_opens_append_fixed _ _, fun items => membershipDraft_eq d items true _⟩
      | _ => cases h
  | _ => cases h

/-- **A list as an operand.**  There are two drafts that do not depend on the list such that, if
the place encloses a list, the items stand between them in one pair of parentheses, and otherwise
they stand there bare, with no parenthesis opened just before them.  In a grouping the list has one
pair of parentheses at every place. -/
theorem draft_fill {s : Site} (written : s.isWritten d = true) :
    ∃ before after : Draft, ¬ before.Opens ∧ ∀ items : List Node, items ≠ [] →
      let listed := Part.list (items.map (Node.part d))
      let list := Node.of (.list items)
      (s.fill list).draft d .item =
          before ++ (if s.encloses then listed.parens else listed) ++ after ∧
        (s.fill (.of (.unary .grouping list))).draft d .item =
          before ++ listed.parens ++ after := by
  cases encloses : s.encloses with
  | false =>
      obtain ⟨before, after, bare, around⟩ := around d written encloses
      refine ⟨before, after, bare, fun items _ => ⟨?_, ?_⟩⟩
      · rw [draft_fill_eq, around (Node.standsAs_list d items)]
        rfl
      · rw [draft_fill_eq, around (Node.standsAs_grouping_list d items)]
  | true =>
      obtain ⟨before, bare, enclosed⟩ := exists_enclosed d encloses
      refine ⟨before, nothing, bare, fun items hi => ?_⟩
      obtain ⟨list, grouping⟩ := enclosed items hi
      intro listed _
      rw [append_nothing, append_nothing, draft_fill_eq, draft_fill_eq]
      exact ⟨list, grouping⟩

/-- Negated, two columns stand bare, and in a grouping they do not. -/
theorem draft_fill_not :
    (unary .not).isWritten .generic = true ∧
      ∃ before after : Draft, ¬ before.Opens ∧ ∀ items : List Node, items ≠ [] →
        (Node.of (.unary .not (.of (.list items)))).draft .generic .item =
          before ++ Part.list (items.map (Node.part .generic)) ++ after := by
  have written : (unary .not).isWritten .generic = true := rfl
  obtain ⟨before, after, bare, around⟩ := draft_fill .generic written
  exact ⟨written, before, after, bare, fun items hi => (around items hi).1⟩

/-- Under NOT there is no parenthesis for two columns. -/
theorem not_list_bare :
    let column (name : String) : Node := .of (.column ⟨⟨"t", none⟩, name⟩)
    let e := (unary .not).fill (.of (.list [column "a", column "b"]))
    let text := "NOT \"t\".\"a\", \"t\".\"b\""
    e.toSql .generic = .ok text ∧ '(' ∉ text.toList := by
  intro column e text
  have written : e.toSql .generic = .ok text := rfl
  exact ⟨written, by decide⟩

end Site

end SqlTree
