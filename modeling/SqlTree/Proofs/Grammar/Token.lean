import Mathlib.Data.List.Forall2
import SqlTree.Proofs.Writing.Draft
import SqlTree.Text.Blank

/-!
# SqlTree — Proofs — the tokens of a text

A text is read as tokens.  Every word that is written is one token, whoever spelled it: a word of
the language is known by a lexicon, and any other is what the caller spells.  Names, strings and
slots are told apart from words by how they are quoted.

* `Draft.Spells`: a draft came to its end and its text consists of these tokens.  Each combination
  of drafts spells what its parts spell.
-/

namespace SqlTree

/-! ### Words of the language -/

/-- A word or sign that has a meaning of its own. -/
inductive Mark where
  | comma
  /-- Between a table and its column. -/
  | dot
  | naming
  | distinct
  | truth (b : Bool)
  | not
  | cast
  /-- CASE, its inner words, and its END. -/
  | case | condition | result | default | finish
  | and
  | between
  | member (negated : Bool)
  | isNull (negated : Bool)
  | like (negated : Bool)
  | escape
  | operator (op : BinaryOperator)
  deriving DecidableEq

/-- The words that have a meaning, and what they mean. -/
abbrev Lexicon := List (String × Mark)

inductive Token where
  | mark (m : Mark)
  /-- A word that the caller spells. -/
  | word (text : String)
  | name (text : String)
  | string (text : String)
  | slot (bind : Bind)
  | opening
  | closing
  deriving DecidableEq

namespace Lexicon

/-- A word by its meaning, if it has one. -/
def token (words : Lexicon) (text : String) : Token :=
  match words.lookup text with
  | some m => .mark m
  | none => .word text

/-- The token of a text, which is nothing if the text is blank. -/
def ofText (words : Lexicon) (text : String) : List Token :=
  match Text.trim text.toList with
  | [] => []
  | cs => [words.token (String.ofList cs)]

/-- The text is one word without a meaning of its own. -/
structure IsFree (words : Lexicon) (text : String) : Prop where
  trimmed : Text.trim text.toList = text.toList
  nonempty : text ≠ ""
  unknown : words.lookup text = none

theorem IsFree.ofText {words : Lexicon} {text : String} (h : words.IsFree text) :
    words.ofText text = [.word text] := by
  have nonempty : text.toList ≠ [] := fun hnil => h.nonempty (String.toList_eq_nil_iff.mp hnil)
  rw [Lexicon.ofText, h.trimmed]
  cases hcs : text.toList with
  | nil => exact absurd hcs nonempty
  | cons c cs => simp only [← hcs, String.ofList_toList, Lexicon.token, h.unknown]

/-- The tokens of a lexeme. -/
def ofLexeme (words : Lexicon) : Lexeme → List Token
  | .fixed text | .verbatim text => words.ofText text
  | .name text => [.name text]
  | .string text => [.string text]
  | .comment .. => []
  | .opening => [.opening]
  | .closing => [.closing]
  | .slot bind => [.slot bind]

def tokens (words : Lexicon) (ls : List Lexeme) : List Token := ls.flatMap words.ofLexeme

end Lexicon

/-! ### What a draft spells -/

/-- Tokens with the same one between any two items. -/
def separated (between : Token) : List (List Token) → List Token
  | [] => []
  | [ts] => ts
  | ts :: tss => ts ++ between :: separated between tss

theorem separated_cons_cons (between : Token) (ts us : List Token) (tss : List (List Token)) :
    separated between (ts :: us :: tss) = ts ++ between :: separated between (us :: tss) := rfl

theorem separated_cons (between : Token) (ts : List Token) (tss : List (List Token)) :
    separated between (ts :: tss) = ts ++ tss.flatMap (between :: ·) := by
  induction tss generalizing ts with
  | nil => rw [separated, List.flatMap_nil, List.append_nil]
  | cons us tss ih => rw [separated_cons_cons, ih, List.flatMap_cons, List.cons_append]

/-- The draft came to its end, and its text is made of these tokens. -/
structure Draft.Spells (words : Lexicon) (a : Draft) (ts : List Token) : Prop where
  whole : a.IsWhole
  tokens : words.tokens a.lexemes = ts

namespace Draft.Spells

variable {words : Lexicon} {a b : Draft} {ts us : List Token}

theorem nothing : Spells words nothing [] := ⟨rfl, rfl⟩

theorem append (ha : Spells words a ts) (hb : Spells words b us) :
    Spells words (a ++ b) (ts ++ us) := by
  refine ⟨isWhole_append.mpr ⟨ha.whole, hb.whole⟩, ?_⟩
  rw [lexemes_append _ ha.whole, Lexicon.tokens, List.flatMap_append]
  exact congrArg₂ (· ++ ·) ha.tokens hb.tokens

/-- A draft of one lexeme spells the tokens of it. -/
theorem lexeme (l : Lexeme) (h : words.ofLexeme l = ts) : Spells words ⟨[l], none⟩ ts :=
  ⟨rfl, (List.append_nil _).trans h⟩

theorem fixed {text : String} (h : words.ofText text = ts) : Spells words (fixed text) ts :=
  lexeme _ h

theorem verbatim {text : String} (h : words.IsFree text) :
    Spells words (verbatim text) [.word text] :=
  lexeme _ h.ofText

theorem ident (text : String) : Spells words (ident text) [.name text] := lexeme _ rfl

theorem stringLiteral (text : String) : Spells words (stringLiteral text) [.string text] :=
  lexeme _ rfl

theorem slot (bind : Bind) : Spells words (slot bind) [.slot bind] := lexeme _ rfl

theorem parens (h : Spells words a ts) : Spells words a.parens (.opening :: ts ++ [.closing]) :=
  ((lexeme .opening rfl).append h).append (lexeme .closing rfl)

theorem onlyIf (condition : Bool) (h : Spells words a ts) :
    Spells words (onlyIf condition a) (if condition then ts else []) := by
  cases condition with
  | true => exact h
  | false => exact nothing

theorem sepBy {between : String} {tok : Token} (h : words.ofText between = [tok]) :
    ∀ {as : List Draft} {tss : List (List Token)}, List.Forall₂ (Spells words) as tss →
      Spells words (sepBy between as) (separated tok tss)
  | [], _, .nil => nothing
  | [_], _, .cons ha .nil => ha
  | _ :: _ :: _, _, .cons ha (.cons hb hbs) => by
      have rest := (fixed h).append (sepBy h (.cons hb hbs))
      simpa only [sepBy_cons_cons, append_assoc, separated_cons_cons, List.singleton_append] using
        ha.append rest

theorem inOrder : ∀ {as : List Draft} {tss : List (List Token)},
    List.Forall₂ (Spells words) as tss → Spells words (inOrder as) tss.flatten
  | [], _, .nil => nothing
  | _ :: _, _, .cons ha has => ha.append (inOrder has)

end Draft.Spells

end SqlTree
