import SqlTree.Text.Blank

/-!
# SqlTree — dialects

The dialects of SQL that trees are written in, and the styles of placeholder that stand for the
values of a compiled query.
-/

namespace SqlTree

/-- How the place of a value is marked in the text of a query. -/
inductive PlaceholderStyle where
  | positional | numbered | colon | atSign
  deriving DecidableEq, Repr

/-- A question mark, or the number of the slot from 1 on after a dollar sign, or the name after a
mark; a slot without a name is called by its number. -/
def PlaceholderStyle.placeholder (style : PlaceholderStyle) (index : Nat) (name : Option String) :
    String :=
  match style with
  | .positional => "?"
  | .numbered => "$" ++ toString index
  | .colon => ":" ++ name.getD ("p" ++ toString index)
  | .atSign => "@" ++ name.getD ("p" ++ toString index)

inductive Dialect where
  | generic | postgresql | mysql | sqlite
  deriving DecidableEq, Repr, Inhabited

namespace Dialect

def all : List Dialect := [generic, postgresql, mysql, sqlite]

def name : Dialect → String
  | generic => "generic"
  | postgresql => "postgresql"
  | mysql => "mysql"
  | sqlite => "sqlite"

/-- Every name a dialect goes by, in small letters. -/
def names : Dialect → List String
  | generic => ["generic", "ansi", "sql"]
  | postgresql => ["postgresql", "postgres", "pg"]
  | mysql => ["mysql", "mariadb"]
  | sqlite => ["sqlite", "sqlite3"]

/-- The dialect of that name; blanks around it and the case of its ASCII letters do not matter. -/
def parse? (text : String) : Option Dialect :=
  let word := String.ofList (Text.lower (Text.trim text.toList))
  all.find? fun d => d.names.contains word

/-- Whether placeholders of the dialect carry the numbers of their slots. -/
def numbersSlots : Dialect → Bool
  | postgresql => true
  | generic | mysql | sqlite => false

def placeholderStyle (d : Dialect) : PlaceholderStyle :=
  if d.numbersSlots then .numbered else .positional

end Dialect

end SqlTree
