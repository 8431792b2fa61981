import SqlTree.Proofs.Grammar.RoundTrip
import SqlTree.Proofs.Precedence.ReadBack

/-!
# SqlTree — Proofs — expressions that are written as others

Some constructs have no text of their own.  Outside one dialect the mark for a comparison byte by
byte is written as the operand that it marks, and the conjunction of nothing is written as a
comparison of two numbers.  The strengths of these constructs are not those of what is written for
them, so that an operand may stand bare where its text needs parentheses (`Node.BareAs`).

* `Node.Respells`: an expression that is written as another one is in the generic dialect.
* `Node.Respells.read`: its tokens are read as what is left of the other one.
-/

namespace SqlTree
open Draft

/-! ### The tokens of a dialect -/

/-- The words of a dialect that the generic one does not have.  MySQL is not read here. -/
def Dialect.ownWords : Dialect → Lexicon
  | generic | mysql => []
  | postgresql =>
    [("ILIKE", .like false), ("NOT ILIKE", .like true), ("#", .operator .bitwiseXor)]
  | sqlite => [("IS", .operator .isNotDistinctFrom), ("IS NOT", .operator .isDistinctFrom)]

def Dialect.lexicon (d : Dialect) : Lexicon := d.ownWords ++ Lexicon.generic

/-- The token of digits is the value that they stand for. -/
def Lexicon.ofRun (words : Lexicon) (run : List Char) : List Token :=
  if run.all Char.isDigit then
    [.slot ⟨none, some (.integer (Int64.ofNat (Nat.ofDigitChars 10 run 0)))⟩]
  else words.ofText (String.ofList run)

/-- The tokens of wording, in which numbers and what stands between them are tokens of their own. -/
def Lexicon.ofWording (words : Lexicon) (text : String) : List Token :=
  if text.toList.any Char.isDigit then
    (text.toList.splitBy fun c c' => c.isDigit == c'.isDigit).flatMap words.ofRun
  else words.ofText text

/-- The tokens of a lexeme as the dialect writes it. -/
def Dialect.scanLexeme (d : Dialect) : Lexeme → List Token
  | .fixed text => d.lexicon.ofWording text
  | l => d.lexicon.ofLexeme l

def Dialect.scan (d : Dialect) (ls : List Lexeme) : List Token := ls.flatMap d.scanLexeme

/-! ### Drafts with the same tokens -/

/-- Both drafts came to their ends, and the first one has the tokens in the dialect that the second
one has in the generic dialect. -/
structure Draft.SameTokens (d : Dialect) (a b : Draft) : Prop where
  whole : a.IsWhole
  generic_whole : b.IsWhole
  tokens : d.scan a.lexemes = b.toks

namespace Draft.SameTokens

variable {d : Dialect} {a a' b b' : Draft}

theorem lexeme {l l' : Lexeme} (h : d.scanLexeme l = Lexicon.generic.ofLexeme l') :
    SameTokens d ⟨[l], none⟩ ⟨[l'], none⟩ :=
  ⟨rfl, rfl, congrArg (· ++ []) h⟩

theorem append (ha : SameTokens d a a') (hb : SameTokens d b b') :
    SameTokens d (a ++ b) (a' ++ b') := by
  refine ⟨isWhole_append.mpr ⟨ha.whole, hb.whole⟩,
    isWhole_append.mpr ⟨ha.generic_whole, hb.generic_whole⟩, ?_⟩
  rw [toks, lexemes_append _ ha.whole, lexemes_append _ ha.generic_whole, Dialect.scan,
    Lexicon.tokens, List.flatMap_append, List.flatMap_append]
  exact congrArg₂ (· ++ ·) ha.tokens hb.tokens

theorem parens (h : SameTokens d a b) : SameTokens d a.parens b.parens :=
  ((lexeme (l := .opening) rfl).append h).append (lexeme (l := .closing) rfl)

theorem ident (text : String) : SameTokens d (ident text) (ident text) := lexeme rfl

theorem stringLiteral (text : String) : SameTokens d (stringLiteral text) (stringLiteral text) :=
  lexeme rfl

theorem slot (b : Bind) : SameTokens d (slot b) (slot b) := lexeme rfl

theorem sepBy {between : String}
    (h : d.scanLexeme (.fixed between) = Lexicon.generic.ofLexeme (.fixed between)) :
    ∀ {as bs : List Draft}, List.Forall₂ (SameTokens d) as bs →
      SameTokens d (sepBy between as) (sepBy between bs)
  | [], _, .nil => ⟨rfl, rfl, rfl⟩
  | [_], _, .cons hab .nil => hab
  | _ :: _ :: _, _, .cons hab (.cons hab' rest) =>
      (hab.append (lexeme h)).append (sepBy h (.cons hab' rest))

end Draft.SameTokens

/-! ### Words in every dialect -/

section
variable {d : Dialect} (foreign : d ≠ .mysql)
include foreign

theorem scan_word : ∀ text ∈ [".", "*", " AND ", "NOT ", " ESCAPE "],
    d.scanLexeme (.fixed text) = Lexicon.generic.ofLexeme (.fixed text) := by
  cases d with
  | mysql => exact absurd rfl foreign
  | generic | postgresql | sqlite => decide +kernel

theorem scan_truth : d.scanLexeme (.fixed "1=1") =
    [.slot ⟨none, some (.integer 1)⟩, .mark (.operator .equality),
      .slot ⟨none, some (.integer 1)⟩] := by
  cases d with
  | mysql => exact absurd rfl foreign
  | generic | postgresql | sqlite => decide +kernel

/-- Signs are spelled in their own ways, and known by that. -/
theorem scan_sign : ∀ op ∈ BinaryOperator.infixes,
    d.scanLexeme (.fixed (" " ++ d.signText op ++ " ")) =
      Lexicon.generic.ofLexeme (.fixed (" " ++ Dialect.generic.signText op ++ " ")) := by
  cases d with
  | mysql => exact absurd rfl foreign
  | generic | postgresql | sqlite => decide +kernel

theorem scan_like (caseSensitive negated : Bool) :
    d.scanLexeme (.fixed (" " ++ d.likeText caseSensitive negated ++ " ")) =
      Lexicon.generic.ofLexeme
        (.fixed (" " ++ Dialect.generic.likeText caseSensitive negated ++ " ")) := by
  cases d with
  | mysql => exact absurd rfl foreign
  | generic | postgresql | sqlite => cases caseSensitive <;> cases negated <;> decide +kernel

end

/-! ### Replacing constructs -/

/-- The operands that a construct puts in parentheses where they are too loose, each with what is
asked of it. -/
def Form.operandPlaces {α : Type} : Form α → List (Nat × α)
  | unary .not e => [(Strength.negation, e)]
  | and items => items.map fun e => (Strength.conjunction, e)
  | binary op left right => [(leftLeast op.strength, left), (op.strength + 1, right)]
  | matching left right .. => [(Strength.compared, left), (Strength.compared, right)]
  | _ => []

namespace Node

/-- Every operand of the tree that stands bare may stand bare if it is replaced by `f`. -/
def BareAs (f : Node → Node) (e : Node) : Prop :=
  ∀ s ∈ e.subtrees, ∀ p ∈ s.form.operandPlaces, p.1 ≤ p.2.strength → p.1 ≤ (f p.2).strength

instance (f : Node → Node) (e : Node) : Decidable (e.BareAs f) :=
  inferInstanceAs (Decidable (∀ s ∈ e.subtrees, ∀ p ∈ s.form.operandPlaces, _ → _))

namespace BareAs

variable {f : Node → Node} {form : Form Node}

theorem of_mem_parts {e : Node} (h : (of form).BareAs f) (he : e ∈ form.parts) : e.BareAs f :=
  fun s hs => h s (mem_subtrees_of_mem_parts he hs)

theorem root (h : (of form).BareAs f) :
    ∀ p ∈ form.operandPlaces, p.1 ≤ p.2.strength → p.1 ≤ (f p.2).strength :=
  h (of form) (self_mem_subtrees _)

theorem item {items : List Node} (h : (of (.and items)).BareAs f) {e : Node} (he : e ∈ items) :
    e.BareAs f ∧ (Strength.conjunction ≤ e.strength → Strength.conjunction ≤ (f e).strength) :=
  ⟨h.of_mem_parts he, h.root (Strength.conjunction, e) (List.mem_map_of_mem he)⟩

/-- Where a construct has two parts, and both are operands. -/
theorem operands {left right : Node} {m n : Nat} (h : (of form).BareAs f)
    (parts : form.parts = [left, right]) (places : form.operandPlaces = [(m, left), (n, right)]) :
    (left.BareAs f ∧ (m ≤ left.strength → m ≤ (f left).strength)) ∧
      right.BareAs f ∧ (n ≤ right.strength → n ≤ (f right).strength) := by
  have root := h.root
  rw [places] at root
  refine ⟨⟨h.of_mem_parts ?_, root (m, left) ?_⟩, h.of_mem_parts ?_, root (n, right) ?_⟩
  · rw [parts]
    exact List.mem_cons_self
  · exact List.mem_cons_self
  · rw [parts]
    exact List.mem_cons_of_mem _ List.mem_cons_self
  · exact List.mem_cons_of_mem _ List.mem_cons_self

end BareAs

/-- The tree with every construct replaced by `f`, from the bottom up. -/
def rewrite (f : Form Node → Node) : Node → Node := fold fun form => f (form.map (·.2))

theorem rewrite_of (f : Form Node → Node) (form : Form Node) :
    (of form).rewrite f = f (form.map (rewrite f)) := by
  rw [rewrite, fold_of, Form.map_map]

/-! ### Expressions that are written as others -/

/-- The number one, compared with itself. -/
def truth : Node := binary .equality (of (.quoted (.integer 1))) (of (.quoted (.integer 1)))

/-- The first expression is written as the second one is in the generic dialect: a mark for a
comparison byte by byte as what it marks, and the conjunction of nothing as a comparison. -/
inductive Respells : Node → Node → Prop
  | column (c : Column) : Respells (of (.column c)) (of (.column c))
  | quoted {v : Value} (hv : v.isNull = false) : Respells (of (.quoted v)) (of (.quoted v))
  | casted {v : Value} (c : Column) (hv : v.isNull = false) :
      Respells (of (.casted v c)) (of (.casted v c))
  | bin {e e' : Node} (h : Respells e e') : Respells (of (.unary .bin e)) e'
  | truth : Respells (of (.and [])) truth
  | grouping {e e' : Node} (h : Respells e e') (same : e.isGrouping = e'.isGrouping) :
      Respells e.grouping e'.grouping
  | not {e e' : Node} (h : Respells e e')
      (bare : Strength.negation ≤ e.strength → Strength.negation ≤ e'.strength) :
      Respells e.not e'.not
  | and {pairs : List (Node × Node)} (nonempty : pairs ≠ []) (h : ∀ p ∈ pairs, Respells p.1 p.2)
      (bare : ∀ p ∈ pairs, Strength.conjunction ≤ p.1.strength →
        Strength.conjunction ≤ p.2.strength) :
      Respells (of (.and (pairs.map Prod.fst))) (of (.and (pairs.map Prod.snd)))
  | operator {op : BinaryOperator} {left left' right right' : Node}
      (hop : op ∈ BinaryOperator.infixes) (hleft : Respells left left')
      (hright : Respells right right')
      (apart : op.isAssociative = true → right'.operator? ≠ some op)
      (bareLeft : leftLeast op.strength ≤ left.strength → leftLeast op.strength ≤ left'.strength)
      (bareRight : op.strength + 1 ≤ right.strength → op.strength + 1 ≤ right'.strength) :
      Respells (binary op left right) (binary op left' right')
  | matching {left left' right right' : Node} (escape? : Option String)
      (caseSensitive negated : Bool) (hleft : Respells left left') (hright : Respells right right')
      (bareLeft : Strength.compared ≤ left.strength → Strength.compared ≤ left'.strength)
      (bareRight : Strength.compared ≤ right.strength → Strength.compared ≤ right'.strength) :
      Respells (of (.matching left right escape? caseSensitive negated))
        (of (.matching left' right' escape? caseSensitive negated))

namespace Respells

variable {e e' : Node}

/-- What is written for an expression binds no tighter than the expression, but for what is tighter
than any operator between operands. -/
theorem strength_le (h : Respells e e') :
    e'.strength ≤ e.strength ∨ Strength.prefixed ≤ e.strength := by
  induction h with
  | column _ | quoted _ | casted _ _ | grouping _ _ | not _ _ | operator _ _ _ _ _ _
  | matching _ _ _ _ _ _ _ => exact .inl (Nat.le_refl _)
  | bin _ _ => exact .inr (Nat.le_refl _)
  | truth => exact .inr (by decide)
  | @and pairs nonempty _ _ ih =>
      rcases pairs with _ | ⟨p, _ | ⟨q, pairs⟩⟩
      · exact absurd rfl nonempty
      · exact ih p (List.mem_singleton_self p)
      · exact .inl (Nat.le_refl _)

theorem isNull (h : Respells e e') : e.isNull = false ∧ e'.isNull = false := by
  induction h with
  | quoted hv | casted _ hv => exact ⟨hv, hv⟩
  | bin _ ih => exact ⟨rfl, ih.2⟩
  | _ => exact ⟨rfl, rfl⟩

theorem isSelect (h : Respells e e') : e.isSelect = false ∧ e'.isSelect = false := by
  induction h with
  | bin _ ih => exact ⟨rfl, ih.2⟩
  | _ => exact ⟨rfl, rfl⟩

theorem operator? (h : Respells e e') {op : BinaryOperator} (root : e.operator? = some op) :
    e'.operator? = some op := by
  cases h with
  | operator _ _ _ _ _ _ => exact root
  | _ => cases root

theorem ne_list (h : Respells e e') (items : List Node) : e' ≠ of (.list items) := by
  induction h with
  | bin _ ih => exact ih
  | _ => exact nofun

/-- The other expression is read back, whatever words are taken for functions. -/
theorem readBack (h : Respells e e') (isFunction : String → Bool) : e'.ReadBack isFunction := by
  induction h with
  | column c => exact .column c
  | quoted _ => exact .slot rfl rfl rfl
  | casted _ _ => exact .slot rfl rfl rfl
  | bin _ ih => exact ih
  | truth =>
      exact .operator (.known (by decide)) (.slot rfl rfl rfl) (.slot rfl rfl rfl) nofun
  | grouping h _ ih => exact .grouping ih h.ne_list
  | not _ _ ih => exact .not ih
  | @and pairs nonempty _ _ ih =>
      refine .and (by simpa using nonempty) fun e he => ?_
      obtain ⟨p, hp, rfl⟩ := List.mem_map.mp he
      exact ih p hp
  | operator hop _ _ apart _ _ ihl ihr => exact .operator (.known hop) ihl ihr apart
  | matching escape? caseSensitive negated _ _ _ _ ihl ihr =>
      exact .matching escape? caseSensitive negated ihl ihr

/-! ### The tokens -/

section
variable {d : Dialect}

/-- Operands that are both put in parentheses, or both not, have the same tokens. -/
theorem operand {least : Nat} (h : Respells e e')
    (tokens : SameTokens d (e.draft d .item) (e'.draft .generic .item))
    (bare : least ≤ e.strength → least ≤ e'.strength) (loose : least ≤ Strength.prefixed) :
    SameTokens d ((e.part d).operand least) ((e'.part .generic).operand least) := by
  have same : e.strength < least ↔ e'.strength < least := by
    constructor
    · intro weak
      rcases h.strength_le with le | tight
      · omega
      · omega
    · intro weak
      by_contra strong
      have := bare (Nat.le_of_not_lt strong)
      omega
  by_cases weak : e.strength < least
  · have enclosed : (e.part d).operand least = (e.part d).item.parens := if_pos weak
    have enclosed' : (e'.part .generic).operand least = (e'.part .generic).item.parens :=
      if_pos (same.mp weak)
    rw [enclosed, enclosed']
    exact tokens.parens
  · have bare : (e.part d).operand least = (e.part d).item := if_neg weak
    have bare' : (e'.part .generic).operand least = (e'.part .generic).item :=
      if_neg (mt same.mpr weak)
    rw [bare, bare']
    exact tokens

variable (foreign : d ≠ .mysql)
include foreign

theorem word {text : String} (h : text ∈ [".", "*", " AND ", "NOT ", " ESCAPE "]) :
    SameTokens d (fixed text) (fixed text) :=
  .lexeme (scan_word foreign text h)

theorem column_sameTokens (c : Column) : SameTokens d c.draft c.draft := by
  have dot : SameTokens d (fixed ".") (fixed ".") := word foreign (by decide)
  have table := (SameTokens.ident c.table.qualifier).append dot
  unfold Column.draft
  split
  · exact table.append (word foreign (by decide))
  · exact table.append (.ident c.name)

/-- An operator whose operand on the right is not NULL is written between its operands. -/
theorem binary_draft {op : BinaryOperator} {left right : Node} (hop : op ∈ BinaryOperator.infixes)
    (apart : op.isAssociative = true → right.operator? ≠ some op) (value : right.isNull = false) :
    (binary op left right).draft d .item =
      (left.part d).operand (leftLeast op.strength) ++ fixed (" " ++ d.signText op ++ " ") ++
        (right.part d).operand (op.strength + 1) := by
  rw [Written.binary_draft foreign hop apart, value]
  cases op.nullTest? <;> rfl

/-- **The tokens are those of the other expression**: what is written for the one in the dialect
has the tokens of what is written for the other in the generic dialect. -/
theorem sameTokens (h : Respells e e') :
    SameTokens d (e.draft d .item) (e'.draft .generic .item) := by
  induction h with
  | column c => exact column_sameTokens foreign c
  | quoted _ => exact .slot _
  | casted c _ => exact .slot _
  | @bin e e' _ ih =>
      have draft : (of (.unary .bin e)).draft d .item = e.draft d .item := by
        rw [draft_item]
        cases d with
        | mysql => exact absurd rfl foreign
        | _ => rfl
      rw [draft]
      exact ih
  | truth =>
      refine ⟨rfl, rfl, ?_⟩
      show d.scan [.fixed "1=1"] = _
      rw [Dialect.scan, List.flatMap_singleton, scan_truth foreign]
      decide
  | grouping h same ih =>
      rw [Node.grouping, Node.grouping, unary, unary, draft_item, draft_item]
      show SameTokens d (part d _).enclosed (part .generic _).enclosed
      simp only [Part.enclosed, Part.node, part, same, h.isSelect.1, h.isSelect.2]
      split
      · exact ih
      · exact ih.parens
  | not h bare ih =>
      rw [Node.not, Node.not, unary, unary, draft_item, draft_item]
      exact (word foreign (by decide)).append (h.operand ih bare (by decide))
  | @and pairs nonempty h bare ih =>
      have operands : List.Forall₂ (SameTokens d)
          (pairs.map fun p => (p.1.part d).operand Strength.conjunction)
          (pairs.map fun p => (p.2.part .generic).operand Strength.conjunction) :=
        forall₂_map fun p hp => (h p hp).operand (ih p hp) (bare p hp) (by decide)
      have joined := SameTokens.sepBy (scan_word foreign " AND " (by decide)) operands
      obtain ⟨p, rest, rfl⟩ := List.exists_cons_of_ne_nil nonempty
      rw [draft_item, draft_item]
      simpa [Form.map, Form.item, conjunction, Part.conjuncts, Function.comp_def] using joined
  | @operator op left left' right right' hop hleft hright apart bareLeft bareRight ihl ihr =>
      have known : ∀ op ∈ BinaryOperator.infixes,
          leftLeast op.strength ≤ Strength.prefixed ∧ op.strength + 1 ≤ Strength.prefixed := by
        decide
      obtain ⟨looseLeft, looseRight⟩ := known op hop
      have generic : Dialect.generic ≠ .mysql := by decide
      have apart_dialect : op.isAssociative = true → right.operator? ≠ some op :=
        fun associative root => apart associative (hright.operator? root)
      have first := hleft.operand ihl bareLeft looseLeft
      have second := hright.operand ihr bareRight looseRight
      rw [binary_draft foreign hop apart_dialect hright.isNull.1,
        binary_draft generic hop apart hright.isNull.2]
      exact (first.append (.lexeme (scan_sign foreign op hop))).append second
  | matching escape? caseSensitive negated hleft hright bareLeft bareRight ihl ihr =>
      rw [draft_item, draft_item]
      have left := hleft.operand ihl bareLeft (by decide)
      have right := hright.operand ihr bareRight (by decide)
      have pattern := (left.append (.lexeme (scan_like foreign caseSensitive negated))).append right
      refine pattern.append ?_
      cases escape? with
      | none => exact ⟨rfl, rfl, rfl⟩
      | some escape => exact (word foreign (by decide)).append (.stringLiteral escape)

/-- What is read is what is left of the other expression. -/
theorem read (h : Respells e e') (isFunction : String → Bool) :
    (e.draft d .statement).IsWhole ∧
      (Grammar.generic isFunction).read (d.scan (e.draft d .statement).lexemes) =
        some e'.erased := by
  have tokens := h.sameTokens foreign
  rw [draft_statement_eq_item d h.isSelect.1, tokens.tokens]
  exact ⟨tokens.whole, (h.readBack isFunction).item.reads.read⟩

end

end Respells

end Node

end SqlTree
