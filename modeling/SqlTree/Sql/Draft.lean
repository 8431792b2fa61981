import SqlTree.Node.Form
import SqlTree.Sql.Quoting

/-!
# SqlTree — Sql — drafts

Writing a tree gives a draft: lexemes in order, and the fault at which writing stopped, if it did.
What was written before the fault is kept.  A draft knows nothing of how values are delivered: a
lexeme of the kind `slot` is the place of a value, and whoever reads the draft puts there the value
itself or a placeholder.

Drafts are put together by `++`, which stops at the first fault; parentheses are only ever written
in pairs.
-/

namespace SqlTree

/-- A piece of SQL text. -/
inductive Lexeme where
  /-- Words and signs of the language, with the blanks around them. -/
  | fixed (text : String)
  /-- SQL that the caller spells. -/
  | verbatim (text : String)
  /-- An identifier, to be quoted. -/
  | name (text : String)
  /-- A string, to be quoted. -/
  | string (text : String)
  /-- A comment, or a hint to the optimizer. -/
  | comment (isHint : Bool) (text : String)
  | opening
  | closing
  /-- The place of a value. -/
  | slot (bind : Bind)
  deriving DecidableEq

structure Draft where
  lexemes : List Lexeme
  /-- Why writing stopped. -/
  fault? : Option Error
  deriving DecidableEq

namespace Draft

def nothing : Draft := ⟨[], none⟩

/-- One draft after the other, unless the first one stopped. -/
protected def append (a b : Draft) : Draft :=
  match a.fault? with
  | none => ⟨a.lexemes ++ b.lexemes, b.fault?⟩
  | some _ => a

instance : Append Draft := ⟨Draft.append⟩

/-! ### Single lexemes -/

def fixed (text : String) : Draft := ⟨[.fixed text], none⟩

def verbatim (text : String) : Draft := ⟨[.verbatim text], none⟩

def ident (text : String) : Draft := ⟨[.name text], none⟩

def stringLiteral (text : String) : Draft := ⟨[.string text], none⟩

def remark (isHint : Bool) (text : String) : Draft := ⟨[.comment isHint text], none⟩

def slot (bind : Bind) : Draft := ⟨[.slot bind], none⟩

/-- Nothing is written, and nothing after it. -/
def fail (e : Error) : Draft := ⟨[], some e⟩

/-- The text of a word, or the reason why there is none. -/
def ofWord : Except Error String → Draft
  | .ok text => fixed text
  | .error e => fail e

/-! ### Combinations -/

/-- The draft in parentheses. -/
def parens (a : Draft) : Draft := ⟨[.opening], none⟩ ++ a ++ ⟨[.closing], none⟩

def onlyIf (condition : Bool) (a : Draft) : Draft := if condition then a else nothing

/-- The drafts one after the other. -/
def inOrder (as : List Draft) : Draft := as.foldr (· ++ ·) nothing

/-- The drafts one after the other, with the same text between any two. -/
def sepBy (between : String) : List Draft → Draft
  | [] => nothing
  | [a] => a
  | a :: as => a ++ fixed between ++ sepBy between as

/-- A keyword and a list, or nothing if the list is empty. -/
def clause (keyword between : String) : List Draft → Draft
  | [] => nothing
  | as => fixed keyword ++ sepBy between as

end Draft

end SqlTree
