import SqlTree.Proofs.Lexing.Comment
import SqlTree.Proofs.Tree.Leaves
import SqlTree.Proofs.Writing.Refusal
import SqlTree.Proofs.Writing.Wording

/-!
# SqlTree — Proofs — parts that are alike

A construct is written from the drafts of its parts, and all it is told of a part besides is the
part's outline and how tightly it binds (`Part.told`).

* `Draft.Congruence`: the relations between drafts that are kept by `++` and by parentheses.
* `Part.Similar`: two parts that look the same, an implicit name apart, and have related drafts.
  Whatever is written for the one at some place outside of a SELECT list is then related to what is
  written there for the other.
* `Part.Alike`: two such parts with the same implicit name, if any.  They are interchangeable in a
  SELECT list as well.
-/

namespace SqlTree
open Draft

/-! ### What a construct is told of a part -/

/-- What is seen of a subtree from outside. -/
inductive Outline where
  | column (c : Column)
  | table (t : Table)
  | value (isNull : Bool)
  | grouping
  | select
  | list (isEmpty : Bool)
  /-- The conjunction of two, which may be the bounds of BETWEEN. -/
  | pair
  /-- A call with an implicit name. -/
  | call (name : String)
  | operator (op : BinaryOperator)
  | other

def Node.outline : Node → Outline
  | of (.column c) => .column c
  | of (.table t) => .table t
  | of (.quoted v) | of (.casted v _) => .value v.isNull
  | of (.unary .grouping _) => .grouping
  | of (.select _) => .select
  | of (.list items) => .list items.isEmpty
  | of (.and [_, _]) => .pair
  | of (.call ⟨_, _, _, some ⟨name, true⟩⟩) => .call name
  | of (.binary op _ _) => .operator op
  | of _ => .other

/-- An implicit name is one of the pieces that the caller spells. -/
theorem Node.mem_raws_of_outline {n : Node} {name : String} (h : n.outline = .call name) :
    name ∈ n.raws := by
  obtain ⟨form⟩ := n
  cases form with
  | call c =>
      rcases c with ⟨_, _, _, _ | ⟨_, _ | _⟩⟩
      · cases h
      · cases h
      · cases h
        rw [raws_of]
        simp [Form.raws, Call.raws]
  | unary op _ => cases op <;> cases h
  | and items => rcases items with _ | ⟨_, _ | ⟨_, _ | _⟩⟩ <;> cases h
  | _ => cases h

namespace Outline

def isNull : Outline → Bool
  | value isNull => isNull
  | _ => false

/-- In parentheses already. -/
def isEnclosed : Outline → Bool
  | grouping | select => true
  | _ => false

def operator? : Outline → Option BinaryOperator
  | operator op => some op
  | _ => none

def isEmptyList : Outline → Bool
  | list isEmpty => isEmpty
  | _ => false

/-- What is seen outside of a SELECT list, where an implicit name does not show. -/
def bare : Outline → Outline
  | call _ => other
  | outline => outline

theorem isEmptyList_bare (o : Outline) : o.bare.isEmptyList = o.isEmptyList := by
  cases o <;> rfl

theorem eq_column_of_bare {o : Outline} {c : Column} (h : o.bare = column c) : o = column c := by
  cases o with
  | call _ => cases h
  | _ => exact h

end Outline

/-- What is asked of a part is answered by its outline and its drafts.  Only a SELECT list asks for
its implicit name. -/
structure Part.Told (p : Part) : Prop where
  isNull : p.node.isNull = p.node.outline.bare.isNull
  isEnclosed : (p.node.isGrouping || p.node.isSelect) = p.node.outline.bare.isEnclosed
  operator? : p.node.operator? = p.node.outline.bare.operator?
  isEmptyList : p.isEmptyList = p.node.outline.bare.isEmptyList
  bounds : p.bounds = match p.node.outline.bare with
    | .pair => p.2 .bounds
    | _ => p.operand Strength.atom
  members : p.members = match p.node.outline.bare with
    | .list _ => p.item.parens
    | _ => p.operand Strength.atom
  target : p.target = match p.node.outline.bare with
    | .column c => ident c.name
    | _ => p.item
  projection : p.projection = match p.node.outline with
    | .call name => p.item ++ fixed " AS " ++ verbatim name
    | _ => p.item
  deleteTarget : deleteTarget p = match p.node.outline.bare with
    | .table t => ident t.qualifier
    | _ => p.item
  wrappedKey : wrappedKey p = match p.node.outline.bare with
    | .column c => (.of (.unqualified c), fun _ => ident c.name)
    | _ => p

theorem Part.told (p : Part) : p.Told := by
  obtain ⟨⟨form⟩, drafts⟩ := p
  -- the constructs whose outline depends on what is in them are split further
  cases form with
  | unary op _ => cases op <;> constructor <;> rfl
  | list items => cases items <;> constructor <;> rfl
  | and items => rcases items with _ | ⟨_, _ | ⟨_, _ | _⟩⟩ <;> constructor <;> rfl
  | call c => rcases c with ⟨_, _, _, _ | ⟨_, _ | _⟩⟩ <;> constructor <;> rfl
  | _ => constructor <;> rfl

/-! ### The relations that are kept -/

/-- A lexeme that the constructs write by themselves: wording, anything in quotes, and comments
without marks.  Parentheses come in pairs only, slots hold values, and what the caller spells may be
anything. -/
def Lexeme.isPlain : Lexeme → Bool
  | fixed text | verbatim text => isWording text.toList
  | name _ | string _ => true
  | comment _ text => !Comment.hasMark text.toList
  | opening | closing | slot _ => false

/-- A relation between drafts that is kept by `++` and by parentheses and holds between a single
plain lexeme and itself. -/
structure Draft.Congruence (S : Draft → Draft → Prop) : Prop where
  nothing : S nothing nothing
  append {a a' b b' : Draft} : S a a' → S b b' → S (a ++ b) (a' ++ b')
  parens {a a' : Draft} : S a a' → S a.parens a'.parens
  lexeme (l : Lexeme) (h : l.isPlain = true) : S ⟨[l], none⟩ ⟨[l], none⟩

/-- What the caller spells is related to itself, as it is and in capitals. -/
structure Draft.Spellable (S : Draft → Draft → Prop) (text : String) : Prop where
  asGiven : S (verbatim text) (verbatim text)
  inCapitals : S (verbatim (String.ofList (Text.upper text.toList)))
    (verbatim (String.ofList (Text.upper text.toList)))

namespace Draft.Congruence

variable {S : Draft → Draft → Prop}

/-- Where no two lexemes need each other, parentheses are nothing special. -/
theorem of_lexemes (nothing : S Draft.nothing Draft.nothing)
    (append : ∀ {a a' b b' : Draft}, S a a' → S b b' → S (a ++ b) (a' ++ b'))
    (lexeme : ∀ l : Lexeme, (∀ b, l ≠ .slot b) → S ⟨[l], none⟩ ⟨[l], none⟩) : Congruence S where
  nothing := nothing
  append := append
  parens h := append (append (lexeme .opening (by simp)) h) (lexeme .closing (by simp))
  lexeme l h := lexeme l (by rintro b rfl; cases h)

variable (hS : Congruence S) {γ : Type}
include hS

theorem fixed (text : String) (h : isWording text.toList = true) : S (fixed text) (fixed text) :=
  hS.lexeme _ h

/-- A text that is spelled out, which is checked character by character. -/
theorem word {cs : List Char} (h : isWording cs = true) :
    S (Draft.fixed (String.ofList cs)) (Draft.fixed (String.ofList cs)) :=
  hS.fixed _ (isWording_ofList h)

theorem ident (text : String) : S (ident text) (ident text) := hS.lexeme _ rfl

theorem stringLiteral (text : String) : S (stringLiteral text) (stringLiteral text) :=
  hS.lexeme _ rfl

theorem remark (isHint : Bool) {text : String} (h : Comment.hasMark text.toList = false) :
    S (remark isHint text) (remark isHint text) :=
  hS.lexeme (.comment isHint text) (by rw [Lexeme.isPlain, h]; rfl)

theorem onlyIf (condition : Bool) {a a' : Draft} (h : S a a') :
    S (onlyIf condition a) (onlyIf condition a') := by
  cases condition with
  | true => exact h
  | false => exact hS.nothing

theorem inOrder {as bs : List Draft} (h : List.Forall₂ S as bs) : S (inOrder as) (inOrder bs) := by
  induction h with
  | nil => exact hS.nothing
  | cons hab _ ih => exact hS.append hab ih

theorem sepBy {between : List Char} (wording : isWording between = true) {as bs : List Draft}
    (h : List.Forall₂ S as bs) :
    S (sepBy (String.ofList between) as) (sepBy (String.ofList between) bs) := by
  induction h with
  | nil => exact hS.nothing
  | cons hab hrest ih =>
      cases hrest with
      | nil => exact hab
      | cons _ _ => exact hS.append (hS.append hab (hS.word wording)) ih

theorem clause {keyword between : List Char} (begins : isWording keyword = true)
    (separates : isWording between = true) {as bs : List Draft} (h : List.Forall₂ S as bs) :
    S (clause (String.ofList keyword) (String.ofList between) as)
      (clause (String.ofList keyword) (String.ofList between) bs) := by
  cases h with
  | nil => exact hS.nothing
  | cons hab hrest => exact hS.append (hS.word begins) (hS.sepBy separates (.cons hab hrest))

/-- What is there or not on both sides. -/
theorem option (x? : Option γ) {a a' : γ → Draft} (h : ∀ x ∈ x?, S (a x) (a' x)) :
    S ((x?.map a).getD Draft.nothing) ((x?.map a').getD Draft.nothing) := by
  cases x? with
  | none => exact hS.nothing
  | some x => exact h x rfl

end Draft.Congruence

/-! ### Parts that are alike -/

/-- Two parts that look the same from outside, an implicit name apart, and have related drafts. -/
structure Part.Similar (S : Draft → Draft → Prop) (p q : Part) : Prop where
  outline : p.node.outline.bare = q.node.outline.bare
  strength : p.node.strength = q.node.strength
  draft : ∀ place, S (p.2 place) (q.2 place)

namespace Part.Similar

variable {S : Draft → Draft → Prop} {p q : Part}

theorem isNull (h : Similar S p q) : p.node.isNull = q.node.isNull := by
  rw [p.told.isNull, q.told.isNull, h.outline]

theorem operator? (h : Similar S p q) : p.node.operator? = q.node.operator? := by
  rw [p.told.operator?, q.told.operator?, h.outline]

theorem isEmptyList (h : Similar S p q) : p.isEmptyList = q.isEmptyList := by
  rw [p.told.isEmptyList, q.told.isEmptyList, h.outline]

theorem item (h : Similar S p q) : S p.item q.item := h.draft .item

theorem operand (hS : Congruence S) (least : Nat) (h : Similar S p q) :
    S (p.operand least) (q.operand least) := by
  simp only [Part.operand, h.strength]
  split
  · exact hS.parens h.item
  · exact h.item

theorem enclosed (hS : Congruence S) (h : Similar S p q) : S p.enclosed q.enclosed := by
  simp only [Part.enclosed, p.told.isEnclosed, q.told.isEnclosed, h.outline]
  split
  · exact h.item
  · exact hS.parens h.item

theorem bounds (hS : Congruence S) (h : Similar S p q) : S p.bounds q.bounds := by
  rw [p.told.bounds, q.told.bounds, h.outline]
  split
  · exact h.draft .bounds
  · exact h.operand hS _

theorem members (hS : Congruence S) (h : Similar S p q) : S p.members q.members := by
  rw [p.told.members, q.told.members, h.outline]
  split
  · exact hS.parens h.item
  · exact h.operand hS _

theorem target (hS : Congruence S) (h : Similar S p q) : S p.target q.target := by
  rw [p.told.target, q.told.target, h.outline]
  split
  · exact hS.ident _
  · exact h.item

theorem deleteTarget (hS : Congruence S) (h : Similar S p q) :
    S (deleteTarget p) (deleteTarget q) := by
  rw [p.told.deleteTarget, q.told.deleteTarget, h.outline]
  split
  · exact hS.ident _
  · exact h.item

theorem wrappedKey (hS : Congruence S) (h : Similar S p q)
    (shown : S p.projection q.projection) :
    S (wrappedKey p).projection (wrappedKey q).projection := by
  rw [p.told.wrappedKey, q.told.wrappedKey, h.outline]
  split
  · exact hS.ident _
  · exact shown

end Part.Similar

/-- Two parts that look the same from outside and have related drafts. -/
structure Part.Alike (S : Draft → Draft → Prop) (p q : Part) : Prop where
  outline : p.node.outline = q.node.outline
  strength : p.node.strength = q.node.strength
  draft : ∀ place, S (p.2 place) (q.2 place)
  /-- An implicit name may be written. -/
  implicit : ∀ name, p.node.outline = .call name → S (verbatim name) (verbatim name)

namespace Part.Alike

variable {S : Draft → Draft → Prop} {p q : Part}

theorem similar (h : Alike S p q) : Similar S p q :=
  ⟨congrArg Outline.bare h.outline, h.strength, h.draft⟩

theorem projection (hS : Congruence S) (h : Alike S p q) : S p.projection q.projection := by
  rw [p.told.projection, q.told.projection, ← h.outline]
  split
  · next name call =>
      exact hS.append (hS.append h.similar.item (hS.word rfl)) (h.implicit name call)
  · exact h.similar.item

end Part.Alike

end SqlTree
