import SqlTree.Proofs.Precedence.Formula
import SqlTree.Proofs.Precedence.Reads
import SqlTree.Proofs.Writing.Draft

/-!
# SqlTree — Proofs — formulas are read back

What an engine has to know of its table for its formulas to be read back is a finite matter of signs
and grades (`Engine.Sound`).  A formula as it is written is read between the ranks of its grade, and
as an operand of AND it joins the conjunction before it (`Node.Written`); these two facts carry each
other through the induction.

* `Node.Formula.read_draft`: the tokens of a formula are accepted, and they are read as its phrase.
-/

namespace SqlTree
open Draft Precedence

/-! ### Drafts that are read -/

/-- The tokens of a draft, each word as it is spelled. -/
abbrev Draft.words (a : Draft) : List Token := Lexicon.tokens [] a.lexemes

/-- The draft is whole, and its tokens are read as the phrase between the ranks. -/
structure Draft.Conveys (P : Precedence) (l r : Nat) (a : Draft) (p : Phrase) : Prop where
  whole : a.IsWhole
  reads : P.Reads l r a.words p

namespace Draft.Conveys

variable {P : Precedence} {k l m n r : Nat} {a b : Draft} {p q : Phrase} {sign : String}

theorem spells (h : a.Conveys P l r p) : a.Spells [] a.words := ⟨h.whole, rfl⟩

theorem of_spells {toks : List Token} (h : a.Spells [] toks) (reads : P.Reads l r toks p) :
    a.Conveys P l r p :=
  ⟨h.whole, by rw [words, h.tokens]; exact reads⟩

theorem mono (h : a.Conveys P l r p) (hl : m ≤ l) (hr : n ≤ r) : a.Conveys P m n p :=
  ⟨h.whole, h.reads.mono hl hr⟩

theorem parens (h : a.Conveys P 1 1 p) : a.parens.Conveys P l r p :=
  of_spells h.spells.parens h.reads.parens

/-- A sign with blanks around it, between two operands. -/
theorem between (spelled : Lexicon.ofText [] (" " ++ sign ++ " ") = [.word sign])
    (known : P.between? sign = some n) (ha : a.Conveys P l m p) (ends : P.Ends m n)
    (hb : b.Conveys P k r q) (fits : n < k) :
    (a ++ fixed (" " ++ sign ++ " ") ++ b).Conveys P (min l n) (min n r) (p.join sign q) := by
  have spells := (ha.spells.append (.fixed spelled)).append hb.spells
  rw [List.append_assoc, List.singleton_append] at spells
  exact of_spells spells (.between known ha.reads ends hb.reads fits)

end Draft.Conveys

/-! ### Sound engines -/

namespace Engine

variable (E : Engine)

/-- The sign of an operator of the strength is known, and it keeps bare operands of every grade but
those that it is said to lose. -/
abbrev Takes (sign : String) (strength : Nat) : Prop :=
  Lexicon.ofText [] (" " ++ sign ++ " ") = [.word sign] ∧ sign ≠ "AND" ∧
    E.table.between? sign = some (E.rank sign) ∧ 1 ≤ E.rank sign ∧
    ∀ g ∈ grades,
      (leftLeast strength ≤ g.1 → E.losesLeft sign g = false →
        1 ≤ E.opens g.1 ∧ E.table.Ends (E.bears g) (E.rank sign)) ∧
      (strength < g.1 → E.losesRight sign g.1 = false → E.rank sign < E.opens g.1 ∧ 1 ≤ E.bears g)

/-- An operator with that sign and that strength may stand bare between the ranks of its grade. -/
abbrev Stands (sign : String) (strength : Nat) : Prop :=
  E.opens strength ≤ E.rank sign ∧ E.closes strength ≤ E.rank sign ∧
    ∀ g ∈ grades,
      (leftLeast strength ≤ g.1 → E.losesLeft sign g = false → E.opens strength ≤ E.opens g.1) ∧
      (strength < g.1 → E.losesRight sign g.1 = false →
        E.bears (strength, g.1 == Strength.prefixed) ≤ E.bears g)

/-- A sign before its operand is known, and it is a word of its own. -/
abbrev Precedes (sign : String) (strength : Nat) : Prop :=
  sign ≠ "*" ∧ ∃ rank ∈ E.table.before? sign, E.closes strength ≤ rank ∧
    ∀ g ∈ grades, strength ≤ g.1 → rank < E.opens g.1 ∧ E.closes strength ≤ E.bears g

/-- What an engine knows of its table. -/
structure Sound : Prop where
  foreign : E.dialect ≠ .mysql
  positive : ∀ g ∈ grades, 1 ≤ E.opens g.1 ∧ 1 ≤ E.bears g
  column : E.table.between? "." = some (E.rank ".") ∧ E.opens Strength.atom ≤ E.rank "." ∧
    E.closes Strength.atom ≤ E.rank "."
  known : ∀ op ∈ .or :: (E.predicates ++ E.computations), op ∈ BinaryOperator.infixes
  operators : ∀ op ∈ .or :: (E.predicates ++ E.computations),
    E.Takes (E.dialect.signText op) op.strength
  predicates : ∀ op ∈ E.predicates, op.isGrouped = false
  bare : ∀ op ∈ E.predicates ++ E.computations, op.isGrouped = false →
    E.Stands (E.dialect.signText op) op.strength ∧ ∀ b, (op.strength, b) ∈ grades
  or : ∀ g ∈ grades, E.losesLeft (E.dialect.signText .or) g = false ∧
    E.losesRight (E.dialect.signText .or) g.1 = false
  matching : ∀ caseSensitive negated,
    E.Takes (E.dialect.likeText caseSensitive negated) Strength.comparison ∧
      E.Stands (E.dialect.likeText caseSensitive negated) Strength.comparison
  regexp : ∀ caseSensitive negated, E.dialect.regexpText caseSensitive negated =
      .ok (E.dialect.regexpSign caseSensitive negated) ∧
    E.Takes (E.dialect.regexpSign caseSensitive negated) Strength.comparison ∧
      E.Stands (E.dialect.regexpSign caseSensitive negated) Strength.comparison
  escape : E.table.between? "ESCAPE" = some (E.rank "ESCAPE") ∧
    (∀ caseSensitive negated,
      E.rank (E.dialect.likeText caseSensitive negated) < E.rank "ESCAPE") ∧
    ∀ g ∈ grades, Strength.comparison < g.1 → E.table.Ends (E.bears g) (E.rank "ESCAPE")
  null : ∀ negated, E.table.between? (nullText negated) = none ∧
    ∃ rank ∈ E.table.behind? (nullText negated), E.opens Strength.comparison ≤ rank ∧
      ∀ g ∈ grades, Strength.comparison < g.1 →
        E.opens Strength.comparison ≤ E.opens g.1 ∧ E.table.Ends (E.bears g) rank
  not : E.Precedes "NOT" Strength.negation
  bitwiseNot : E.Precedes "~" Strength.prefixed
  and : E.table.between? "AND" = some (E.rank "AND") ∧ E.table.chains (E.rank "AND") = true ∧
    E.opens Strength.conjunction ≤ E.rank "AND" ∧ E.closes Strength.conjunction ≤ E.rank "AND" ∧
    ∀ g ∈ grades, Strength.conjunction ≤ g.1 →
      E.opens Strength.conjunction ≤ E.opens g.1 ∧ E.table.Ends (E.bears g) (E.rank "AND") ∧
        (Strength.conjunction < g.1 → E.rank "AND" < E.opens g.1 ∧ E.rank "AND" ≤ E.bears g)

end Engine

/-! ### What the induction carries -/

/-- The formula is read between the ranks of its grade, and it can join a conjunction. -/
structure Node.Written (E : Engine) (e : Node) : Prop where
  grade : e.grade ∈ grades
  item : (e.draft E.dialect .item).Conveys E.table (E.opens e.strength) (E.bears e.grade)
    (e.phrase E.dialect)
  whole : ((e.part E.dialect).operand Strength.conjunction).IsWhole
  joins : E.table.Joins ((e.part E.dialect).operand Strength.conjunction).words (e.phrase E.dialect)

namespace Node.Written

variable {E : Engine} {e left right : Node} {k l m n r least : Nat} {sign : String}

section
variable (sound : E.Sound)
include sound

/-- An operand is in parentheses, or else it is strong enough to stand bare. -/
theorem operand_of_item (grade : e.grade ∈ grades)
    (item : (e.draft E.dialect .item).Conveys E.table (E.opens e.strength) (E.bears e.grade)
      (e.phrase E.dialect))
    (bare : least ≤ e.strength → l ≤ E.opens e.strength ∧ r ≤ E.bears e.grade) :
    ((e.part E.dialect).operand least).Conveys E.table l r (e.phrase E.dialect) := by
  unfold Part.operand
  split
  · obtain ⟨opens, bears⟩ := sound.positive _ grade
    exact (item.mono opens bears).parens
  · next strong =>
      obtain ⟨hl, hr⟩ := bare (Nat.le_of_not_lt strong)
      exact item.mono hl hr

/-- Anything but a conjunction joins a conjunction as one item. -/
theorem of_item (single : e.strength ≠ Strength.conjunction) (grade : e.grade ∈ grades)
    (item : (e.draft E.dialect .item).Conveys E.table (E.opens e.strength) (E.bears e.grade)
      (e.phrase E.dialect)) : e.Written E := by
  obtain ⟨known, -, -, -, fits⟩ := sound.and
  have operand : ((e.part E.dialect).operand Strength.conjunction).Conveys E.table
      (E.rank "AND" + 1) (E.rank "AND") (e.phrase E.dialect) := by
    refine operand_of_item sound grade item fun strong => ?_
    obtain ⟨-, -, tight⟩ := fits _ grade strong
    exact tight (Nat.lt_of_le_of_ne strong (Ne.symm single))
  refine ⟨grade, item, operand.whole, operand.reads.joins fun n hn => ?_⟩
  obtain rfl : E.rank "AND" = n := Option.some.inj (known.symm.trans hn)
  exact ⟨Nat.lt_succ_self _, Nat.le_refl _⟩

theorem of_atom (atom : e.grade = (Strength.atom, false))
    (item : (e.draft E.dialect .item).Conveys E.table (E.opens Strength.atom)
      (E.closes Strength.atom) (e.phrase E.dialect)) : e.Written E := by
  obtain ⟨strength, trails⟩ := Prod.mk.inj atom
  have bears : E.bears e.grade = E.closes Strength.atom := by rw [atom]; rfl
  refine of_item sound (by rw [strength]; decide) (by rw [atom]; decide) ?_
  rw [strength, bears]
  exact item

theorem operand (h : e.Written E)
    (bare : least ≤ e.strength → l ≤ E.opens e.strength ∧ r ≤ E.bears e.grade) :
    ((e.part E.dialect).operand least).Conveys E.table l r (e.phrase E.dialect) :=
  operand_of_item sound h.grade h.item bare

/-- An operand before a sign of the rank `n`. -/
theorem leftOperand (h : e.Written E) (least : Nat)
    (bare : least ≤ e.strength → l ≤ E.opens e.strength ∧ E.table.Ends (E.bears e.grade) n) :
    ∃ m, E.table.Ends m n ∧
      ((e.part E.dialect).operand least).Conveys E.table l m (e.phrase E.dialect) := by
  by_cases strong : least ≤ e.strength
  · obtain ⟨hl, ends⟩ := bare strong
    exact ⟨_, ends, h.operand sound fun _ => ⟨hl, Nat.le_refl _⟩⟩
  · exact ⟨n + 1, .inl (Nat.lt_succ_self n), h.operand sound fun hs => absurd hs strong⟩

/-- An operand behind a sign of the rank `n`. -/
theorem rightOperand (h : e.Written E)
    (bare : least ≤ e.strength → n < E.opens e.strength ∧ r ≤ E.bears e.grade) :
    ∃ k, n < k ∧ ((e.part E.dialect).operand least).Conveys E.table k r (e.phrase E.dialect) := by
  by_cases strong : least ≤ e.strength
  · obtain ⟨fits, hr⟩ := bare strong
    exact ⟨_, fits, h.operand sound fun _ => ⟨Nat.le_refl _, hr⟩⟩
  · exact ⟨n + 1, Nat.lt_succ_self n, h.operand sound fun hs => absurd hs strong⟩

/-! ### Operands without operators -/

theorem column (c : Column) : (of (.column c)).Written E := by
  obtain ⟨known, opens, closes⟩ := sound.column
  refine of_atom sound rfl ?_
  have table : (ident c.table.qualifier ++ fixed ".").Spells []
      [.name c.table.qualifier, .word "."] := (Spells.ident _).append (.fixed rfl)
  have read : ∀ (toks : List Token) (q : Phrase),
      (∀ l r, E.table.Reads l r toks q) →
      E.table.Reads (E.opens Strength.atom) (E.closes Strength.atom)
        ([.name c.table.qualifier] ++ .word "." :: toks)
        (.between "." (.name c.table.qualifier) q) := by
    intro toks q hq
    have reads := Reads.between known (Reads.name (l := E.rank ".") (r := E.rank "." + 1)
      c.table.qualifier) (.inl (Nat.lt_succ_self _)) (hq (E.rank "." + 1) (E.rank "."))
      (Nat.lt_succ_self _)
    rw [Nat.min_self] at reads
    exact reads.mono opens closes
  show (c.draft).Conveys _ _ _ _
  rw [phrase_of]
  simp only [Form.map, Form.phrase]
  unfold Column.draft
  cases c.isStar with
  | true => exact .of_spells (table.append (.fixed rfl)) (read _ _ fun _ _ => .star)
  | false => exact .of_spells (table.append (.ident c.name)) (read _ _ fun _ _ => .name c.name)

theorem slot {b : Bind} (atom : e.grade = (Strength.atom, false))
    (draft : e.draft E.dialect .item = Draft.slot b) (phrase : e.phrase E.dialect = .slot b) :
    e.Written E := by
  refine of_atom sound atom ?_
  rw [draft, phrase]
  exact .of_spells (.slot b) (.slot b)

/-! ### Parentheses and signs before an operand -/

theorem grouping (h : e.Written E) : e.grouping.Written E := by
  refine of_atom sound rfl ?_
  have phrase : e.grouping.phrase E.dialect = e.phrase E.dialect := by
    rw [Node.grouping, unary, phrase_of]
    rfl
  rw [phrase, Node.grouping, unary, draft_item]
  show (e.part E.dialect).enclosed.Conveys _ _ _ _
  unfold Part.enclosed
  split
  -- what stands in parentheses of its own is an atom
  · next enclosed =>
      have atom : e.grade = (Strength.atom, false) := by
        obtain ⟨form⟩ := e
        cases form with
        | unary op _ => cases op <;> first | rfl | cases enclosed
        | select _ => rfl
        | _ => cases enclosed
      have item := h.item
      rw [atom] at item
      rwa [(Prod.mk.inj atom).1] at item
  · obtain ⟨opens, bears⟩ := sound.positive _ h.grade
    exact (h.item.mono opens bears).parens

/-- An operator that a method puts in parentheses. -/
theorem grouped {op : BinaryOperator}
    (item : ((binary op left right).draft E.dialect .item).Conveys E.table 1 1
      ((binary op left right).phrase E.dialect)) : (binary op left right).grouping.Written E := by
  refine of_atom sound rfl ?_
  rw [Node.grouping, unary, phrase_of, draft_item]
  exact item.parens

/-- A sign and its operand. -/
theorem before {strength : Nat} {a : Draft} (precedes : E.Precedes sign strength)
    (spells : a.Spells [] [.word sign]) (h : e.Written E) :
    (a ++ (e.part E.dialect).operand strength).Conveys E.table l (E.closes strength)
      (.before sign (e.phrase E.dialect)) := by
  obtain ⟨proper, n, known, closes, fits⟩ := precedes
  obtain ⟨k, hk, operand⟩ := h.rightOperand sound fun strong => fits _ h.grade strong
  have reads := Reads.before (l := l) known proper operand.reads hk
  rw [Nat.min_eq_right closes] at reads
  exact .of_spells (spells.append operand.spells) reads

theorem not (h : e.Written E) : e.not.Written E := by
  have word : (fixed "NOT ").Spells [] [.word "NOT"] := .fixed rfl
  have item := h.before sound (l := E.opens Strength.negation) sound.not word
  refine of_item sound (by decide : Strength.negation ≠ _)
    (by decide : (Strength.negation, false) ∈ grades) ?_
  rw [Node.not, unary, draft_item, phrase_of]
  exact item

theorem bitwiseNot (h : e.Written E) : e.bitwiseNot.Written E := by
  have word : Lexicon.IsFree [] "~" := ⟨rfl, by decide, rfl⟩
  have item := h.before sound (l := E.opens Strength.prefixed) sound.bitwiseNot
    (Spells.verbatim word)
  refine of_item sound (by decide : Strength.prefixed ≠ _)
    (by decide : (Strength.prefixed, false) ∈ grades) ?_
  rw [Node.bitwiseNot, unary, draft_item, phrase_of]
  exact item

/-! ### Signs between operands -/

/-- A sign and its two operands, between ranks that neither the sign nor a bare operand goes
below. -/
theorem between {strength : Nat} (takes : E.Takes sign strength) (keeps : E.Keeps sign left right)
    (hleft : left.Written E) (hright : right.Written E) (hl : l ≤ E.rank sign)
    (hl' : leftLeast strength ≤ left.strength → l ≤ E.opens left.strength) (hr : r ≤ E.rank sign)
    (hr' : strength < right.strength → r ≤ E.bears right.grade) :
    ((left.part E.dialect).operand (leftLeast strength) ++ fixed (" " ++ sign ++ " ") ++
      (right.part E.dialect).operand (strength + 1)).Conveys E.table l r
      (.between sign (left.phrase E.dialect) (right.phrase E.dialect)) := by
  obtain ⟨spelled, proper, known, -, fits⟩ := takes
  obtain ⟨m, ends, before⟩ := hleft.leftOperand sound _ fun strong =>
    ⟨hl' strong, ((fits _ hleft.grade).1 strong keeps.1).2⟩
  obtain ⟨k, hk, behind⟩ := hright.rightOperand sound fun strong =>
    ⟨((fits _ hright.grade).2 strong keeps.2).1, hr' strong⟩
  have conveys := Draft.Conveys.between spelled known before ends behind hk
  rw [Nat.min_eq_left hl, Nat.min_eq_right hr, Phrase.join, if_neg proper] at conveys
  exact conveys

omit sound in
theorem bears_le (E : Engine) (strength : Nat) (b : Bool) :
    E.bears (strength, b) ≤ E.closes strength := by
  unfold Engine.bears
  split
  · exact Nat.min_le_left _ _
  · exact Nat.le_refl _

/-- A sign and its two operands, as an operand of another sign. -/
theorem between_bare {strength : Nat} (takes : E.Takes sign strength)
    (stands : E.Stands sign strength) (keeps : E.Keeps sign left right) (hleft : left.Written E)
    (hright : right.Written E) :
    ((left.part E.dialect).operand (leftLeast strength) ++ fixed (" " ++ sign ++ " ") ++
      (right.part E.dialect).operand (strength + 1)).Conveys E.table (E.opens strength)
      (E.bears (strength, right.strength == Strength.prefixed))
      (.between sign (left.phrase E.dialect) (right.phrase E.dialect)) := by
  obtain ⟨opens, closes, fits⟩ := stands
  exact between sound takes keeps hleft hright opens
    (fun strong => (fits _ hleft.grade).1 strong keeps.1) ((bears_le E _ _).trans closes)
    fun strong => (fits _ hright.grade).2 strong keeps.2

end

/-- How an operator between operands is written: a comparison with NULL is a test. -/
theorem binary_draft {d : Dialect} (foreign : d ≠ .mysql) {op : BinaryOperator}
    (h : op ∈ BinaryOperator.infixes)
    (apart : op.isAssociative = true → right.operator? ≠ some op) :
    (binary op left right).draft d .item =
      match op.nullTest?, right.isNull with
      | some negated, true => nullDraft negated (left.part d)
      | _, _ => (left.part d).operand (leftLeast op.strength) ++
          fixed (" " ++ d.signText op ++ " ") ++ (right.part d).operand (op.strength + 1) := by
  have least : (if op.isAssociative && (right.part d).node.operator? == some op
      then op.strength else op.strength + 1) = op.strength + 1 := by
    rw [if_neg]
    simpa [Part.node, part] using apart
  have spread : d.signText op = d.operatorText op →
      op.sign d = fixed (" " ++ d.operatorText op ++ " ") →
      op.spread d (left.part d) (right.part d) =
        (left.part d).operand (leftLeast op.strength) ++ fixed (" " ++ d.signText op ++ " ") ++
          (right.part d).operand (op.strength + 1) := by
    intro text sign
    unfold BinaryOperator.spread
    rw [least, sign, text]
    rfl
  rw [binary, draft_item]
  show op.draft d (left.part d) (right.part d) = _
  cases op with
  | equality | notEqual =>
      cases null : right.isNull with
      | true => exact if_pos null
      | false => exact (if_neg (Bool.eq_false_iff.mp null)).trans (spread (by cases d <;> rfl) rfl)
  | isDistinctFrom | isNotDistinctFrom =>
      cases null : right.isNull with
      | true => exact if_pos null
      | false =>
          refine (if_neg (Bool.eq_false_iff.mp null)).trans ?_
          cases d with
          | mysql => exact absurd rfl foreign
          | _ => rfl
  | concat =>
      cases d with
      | mysql => exact absurd rfl foreign
      | _ => exact spread rfl rfl
  | custom _ | isIn | isNotIn | between | named | assignment | filter =>
      simp [BinaryOperator.infixes] at h
  | _ => exact spread (by cases d <;> rfl) rfl

theorem binary_phrase (d : Dialect) (op : BinaryOperator) :
    (binary op left right).phrase d =
      match op.nullTest?, right.isNull with
      | some negated, true => .behind (nullText negated) (left.phrase d)
      | _, _ => .between (d.signText op) (left.phrase d) (right.phrase d) := by
  rw [binary, phrase_of]
  rfl

section
variable (sound : E.Sound)
include sound

/-- The test for NULL bears anything behind it. -/
theorem null (negated : Bool) (h : e.Written E) :
    (nullDraft negated (e.part E.dialect)).Conveys E.table (E.opens Strength.comparison) r
      (.behind (nullText negated) (e.phrase E.dialect)) := by
  obtain ⟨unknown, n, known, opens, fits⟩ := sound.null negated
  obtain ⟨m, ends, operand⟩ := h.leftOperand sound Strength.compared fun strong =>
    fits _ h.grade strong
  have word : (fixed (if negated then " IS NOT NULL" else " IS NULL")).Spells []
      [.word (nullText negated)] := by
    cases negated <;> exact .fixed rfl
  have reads := Reads.behind (r := r) unknown known operand.reads ends
  rw [Nat.min_eq_left opens] at reads
  exact .of_spells (operand.spells.append word) reads

section
variable {op : BinaryOperator} (apart : op.isAssociative = true → right.operator? ≠ some op)
  (keeps : E.Keeps (E.dialect.signText op) left right) (hleft : left.Written E)
  (hright : right.Written E)
include apart keeps hleft hright

theorem binary_grouped (hop : op ∈ .or :: (E.predicates ++ E.computations))
    (plain : op.nullTest? = none) : (binary op left right).grouping.Written E := by
  have takes := sound.operators op hop
  obtain ⟨-, -, -, positive, fits⟩ := sound.operators op hop
  refine grouped sound ?_
  rw [binary_draft sound.foreign (sound.known op hop) apart, binary_phrase, plain]
  exact between sound takes keeps hleft hright positive
    (fun strong => ((fits _ hleft.grade).1 strong keeps.1).1) positive
    fun strong => ((fits _ hright.grade).2 strong keeps.2).2

theorem binary_bare (hop : op ∈ E.predicates ++ E.computations) (bare : op.isGrouped = false) :
    (binary op left right).Written E := by
  have hop' : op ∈ .or :: (E.predicates ++ E.computations) := List.mem_cons_of_mem _ hop
  have strengths : ∀ op ∈ BinaryOperator.infixes, op.strength ≠ Strength.conjunction ∧
      (op.nullTest? ≠ none → op.strength = Strength.comparison) := by decide
  obtain ⟨single, test⟩ := strengths op (sound.known op hop')
  obtain ⟨stands, known⟩ := sound.bare op hop bare
  have conveys := between_bare sound (sound.operators op hop') stands keeps hleft hright
  refine of_item sound single (known _) ?_
  show Draft.Conveys _ (E.opens op.strength) (E.bears (op.strength, _)) _ _
  rw [binary_draft sound.foreign (sound.known op hop') apart, binary_phrase]
  cases hnull : op.nullTest? with
  | none => exact conveys
  | some negated =>
      cases right.isNull with
      | false => exact conveys
      | true =>
          rw [test (by simp [hnull])]
          exact hleft.null sound negated

end

theorem compare {op : BinaryOperator} {right : Operand} (hop : op ∈ E.predicates)
    (apart : op.isAssociative = true → (right.against left).operator? ≠ some op)
    (keeps : E.Keeps (E.dialect.signText op) left (right.against left)) (hleft : left.Written E)
    (hright : (right.against left).Written E) : (left.compare op right).Written E :=
  binary_bare sound apart keeps hleft hright (List.mem_append_left _ hop) (sound.predicates op hop)

theorem calculate {op : BinaryOperator} {right : Operand} (hop : op ∈ E.computations)
    (apart : op.isAssociative = true → (right.against left).operator? ≠ some op)
    (keeps : E.Keeps (E.dialect.signText op) left (right.against left)) (hleft : left.Written E)
    (hright : (right.against left).Written E) : (left.calculate op right).Written E := by
  have hop' : op ∈ E.predicates ++ E.computations := List.mem_append_right _ hop
  rw [calculate_eq]
  split
  · next hgroup =>
      have plain : op.nullTest? = none := by
        cases op <;> first | rfl | cases hgroup
      exact binary_grouped sound apart keeps hleft hright (List.mem_cons_of_mem _ hop') plain
  · next hgroup =>
      exact binary_bare sound apart keeps hleft hright hop' (Bool.eq_false_iff.mpr hgroup)

theorem or (apart : right.operator? ≠ some .or) (hleft : left.Written E)
    (hright : right.Written E) : (left.or right).Written E :=
  binary_grouped sound (fun _ => apart)
    ⟨(sound.or _ hleft.grade).1, (sound.or _ hright.grade).2⟩ hleft hright List.mem_cons_self rfl

/-- A pattern and the escape character that belongs to it. -/
theorem escaped {n : Nat} (escape : String) (h : e.Written E) (looser : n < E.rank "ESCAPE")
    (fits : Strength.comparison < e.strength → n < E.opens e.strength) :
    ((e.part E.dialect).operand Strength.compared ++ fixed " ESCAPE " ++
      stringLiteral escape).Conveys E.table (n + 1) (E.rank "ESCAPE")
      (.between "ESCAPE" (e.phrase E.dialect) (.string escape)) := by
  obtain ⟨known, -, ends⟩ := sound.escape
  obtain ⟨m, hm, operand⟩ := h.leftOperand sound Strength.compared (l := n + 1)
    fun strong => ⟨fits strong, ends _ h.grade strong⟩
  have literal : (stringLiteral escape).Conveys E.table (E.rank "ESCAPE" + 1) (E.rank "ESCAPE")
      (.string escape) := .of_spells (.stringLiteral escape) (.string escape)
  have spelled : Lexicon.ofText [] (" " ++ "ESCAPE" ++ " ") = [.word "ESCAPE"] := rfl
  have conveys := Draft.Conveys.between spelled known operand hm literal (Nat.lt_succ_self _)
  rwa [Nat.min_eq_left looser, Nat.min_self, Phrase.join, if_neg (by decide)] at conveys

omit sound in
/-- The grade of a match is that of a comparison. -/
theorem grade_of_comparison (right : Node) :
    (Strength.comparison, right.strength == Strength.prefixed) ∈ grades := by
  cases right.strength == Strength.prefixed <;> decide

theorem matching {pattern : Operand} (escape? : Option String) (caseSensitive negated : Bool)
    (keeps : E.Keeps (E.dialect.likeText caseSensitive negated) left (pattern.against left))
    (hleft : left.Written E) (hright : (pattern.against left).Written E) :
    (left.matching pattern escape? caseSensitive negated).Written E := by
  obtain ⟨takes, stands⟩ := sound.matching caseSensitive negated
  refine of_item sound (by decide : Strength.comparison ≠ _)
    (grade_of_comparison (pattern.against left)) ?_
  rw [Node.matching, draft_item, phrase_of]
  cases escape? with
  | none =>
      have conveys := between_bare sound takes stands keeps hleft hright
      rw [← append_nothing (_ ++ _ : Draft)] at conveys
      exact conveys
  | some escape =>
      obtain ⟨spelled, proper, known, -, fits⟩ := takes
      obtain ⟨opens, closes, stands⟩ := stands
      have looser := sound.escape.2.1 caseSensitive negated
      obtain ⟨m, ends, before⟩ := hleft.leftOperand sound Strength.compared
        fun strong => ⟨(stands _ hleft.grade).1 strong keeps.1,
          ((fits _ hleft.grade).1 strong keeps.1).2⟩
      have behind := hright.escaped sound escape looser fun strong =>
        ((fits _ hright.grade).2 strong keeps.2).1
      have conveys := Draft.Conveys.between spelled known before ends behind (Nat.lt_succ_self _)
      rw [Nat.min_eq_left opens, Nat.min_eq_left (Nat.le_of_lt looser), Phrase.join, if_neg proper,
        ← append_assoc, ← append_assoc, append_assoc _ (fixed " ESCAPE ")] at conveys
      exact conveys.mono (Nat.le_refl _) ((bears_le E _ _).trans closes)

theorem regexp {pattern : Operand} (caseSensitive negated : Bool)
    (keeps : E.Keeps (E.dialect.regexpSign caseSensitive negated) left (pattern.against left))
    (hleft : left.Written E) (hright : (pattern.against left).Written E) :
    (left.regexp pattern caseSensitive negated).Written E := by
  obtain ⟨spelled, takes, stands⟩ := sound.regexp caseSensitive negated
  have conveys := between_bare sound takes stands keeps hleft hright
  refine of_item sound (by decide : Strength.comparison ≠ _)
    (grade_of_comparison (pattern.against left)) ?_
  rw [Node.regexp, draft_item, phrase_of]
  show (regexpDraft E.dialect _ _ caseSensitive negated).Conveys _ _ _ _
  rw [regexpDraft, spelled]
  exact conveys

/-! ### Conjunctions -/

theorem and (hleft : left.Written E) (hright : right.Written E) : (left.and right).Written E := by
  obtain ⟨known, chains, opens, closes, fits⟩ := sound.and
  have word : (fixed " AND ").Spells [] [.word "AND"] := .fixed rfl
  have draft : (left.and right).draft E.dialect .item =
      (left.part E.dialect).operand Strength.conjunction ++ fixed " AND " ++
        (right.part E.dialect).operand Strength.conjunction := by
    rw [Node.and, draft_item]
    rfl
  have phrase : (left.and right).phrase E.dialect =
      (left.phrase E.dialect).conjoin (right.phrase E.dialect) := by
    rw [Node.and, phrase_of]
    exact congrArg (fun items => Phrase.all (_ ++ items)) (List.append_nil _)
  have spells : ((left.and right).draft E.dialect .item).Spells []
      (((left.part E.dialect).operand Strength.conjunction).words ++
        .word "AND" :: ((right.part E.dialect).operand Strength.conjunction).words) := by
    have whole := (Spells.append ⟨hleft.whole, rfl⟩ word).append ⟨hright.whole, rfl⟩
    rw [List.append_assoc, List.singleton_append] at whole
    rwa [draft]
  -- within another conjunction it has no parentheses, and both its items join
  have bare : ((left.and right).part E.dialect).operand Strength.conjunction =
      (left.and right).draft E.dialect .item := if_neg (Nat.lt_irrefl _)
  refine ⟨(by decide : (Strength.conjunction, false) ∈ grades), ?_, ?_, ?_⟩
  · obtain ⟨m, ends, before⟩ := hleft.leftOperand sound Strength.conjunction
      fun strong => ⟨(fits _ hleft.grade strong).1, (fits _ hleft.grade strong).2.1⟩
    have reads := Reads.conjoin known before.reads ends hright.joins
    rw [Nat.min_eq_left opens] at reads
    rw [phrase]
    exact .of_spells spells (reads.mono (Nat.le_refl _) closes)
  · rw [bare]
    exact spells.whole
  · rw [bare, phrase, Draft.words, spells.tokens]
    refine Joins.conjoin hleft.joins hright.joins fun n hn => ?_
    obtain rfl : E.rank "AND" = n := Option.some.inj (known.symm.trans hn)
    exact chains

end

end Node.Written

/-! ### All formulas -/

namespace Node.Formula

variable {E : Engine} {e : Node} (sound : E.Sound) (h : e.Formula E)
include sound h

theorem written : e.Written E := by
  induction h with
  | column c => exact .column sound c
  | quoted v => exact .slot sound rfl rfl rfl
  | casted v c => exact .slot sound rfl rfl rfl
  | grouping _ ih => exact ih.grouping sound
  | not _ ih => exact ih.not sound
  | bitwiseNot _ _ ih => exact ih.bitwiseNot sound
  | and _ _ ihl ihr => exact ihl.and sound ihr
  | or _ _ apart ihl ihr => exact .or sound apart ihl ihr
  | compare hop _ _ apart keeps ihl ihr => exact .compare sound hop apart keeps ihl ihr
  | calculate hop _ _ apart keeps ihl ihr => exact .calculate sound hop apart keeps ihl ihr
  | matching escape? caseSensitive negated _ _ keeps ihl ihr =>
      exact .matching sound escape? caseSensitive negated keeps ihl ihr
  | regexp caseSensitive negated _ _ keeps ihl ihr =>
      exact .regexp sound caseSensitive negated keeps ihl ihr

omit sound in
theorem isSelect_eq_false : e.isSelect = false := by
  cases h with
  | @calculate op => cases op <;> rfl
  | _ => rfl

omit sound in
/-- Only a select is written otherwise as a statement. -/
theorem draft_statement : e.draft E.dialect .statement = e.draft E.dialect .item :=
  draft_statement_eq_item E.dialect h.isSelect_eq_false

/-- **A formula is read back** by the table of its engine: its tokens are accepted, and they are
read as its phrase. -/
theorem read_draft : (e.draft E.dialect .statement).IsWhole ∧
    E.table.read (e.draft E.dialect .statement).words = some (e.phrase E.dialect) := by
  have written := h.written sound
  obtain ⟨opens, bears⟩ := sound.positive _ written.grade
  rw [h.draft_statement]
  exact ⟨written.item.whole, written.item.reads.read opens bears⟩

end Node.Formula

end SqlTree
