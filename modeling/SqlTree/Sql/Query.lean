import SqlTree.Builder.Select
import SqlTree.Sql.Node

/-!
# SqlTree — Sql — queries

The two ways to read a draft.  Inline, every slot is filled with its value as a literal, and a slot
without a value stops the reading.  Compiled, every slot is filled with a placeholder, and the slots
themselves are kept beside the text, so that values can be bound to their names later.
-/

namespace SqlTree

/-- The text of a lexeme other than a slot. -/
def Lexeme.text (d : Dialect) : Lexeme → String
  | fixed text | verbatim text => text
  | name text => d.quoteIdentifier text
  | string text => d.quoteString text
  | comment true text => "/*+ " ++ text ++ " */"
  | comment false text => "/* " ++ text ++ " */"
  | opening => "("
  | closing => ")"
  | slot _ => ""

namespace Bind

/-- The error of a slot without a value. -/
def unbound (b : Bind) : Error := .unboundParameter (b.name?.getD "?")

/-- The value of the slot, which it has to have. -/
def value (b : Bind) : Except Error Value :=
  match b.value? with
  | some v => .ok v
  | none => .error b.unbound

end Bind

/-! ### Inline -/

namespace Draft

/-- The texts of lexemes, with slots filled by `fill` up to the first that it refuses. -/
def texts (d : Dialect) (fill : Bind → Except Error String) :
    List Lexeme → List String × Option Error
  | [] => ([], none)
  | .slot b :: ls =>
    match fill b with
    | .ok text => let (rest, stop?) := texts d fill ls; (text :: rest, stop?)
    | .error e => ([], some e)
  | l :: ls => let (rest, stop?) := texts d fill ls; (l.text d :: rest, stop?)

/-- The text of a draft up to where it or its filling stops, and why it stops. -/
def readWith (d : Dialect) (fill : Bind → Except Error String) (a : Draft) :
    String × Option Error :=
  let (texts, stop?) := texts d fill a.lexemes
  (String.join texts, stop?.or a.fault?)

/-- A slot filled with its value as a literal of the dialect. -/
def literal (d : Dialect) (b : Bind) : Except Error String := d.quoteValue <$> b.value

/-- The text of a whole draft with values in their places. -/
def toSql (d : Dialect) (a : Draft) : Except Error String :=
  match a.readWith d (literal d) with
  | (sql, none) => .ok sql
  | (_, some e) => .error e

end Draft

/-! ### Compiled -/

/-- The text of a query with placeholders, and what belongs in their places. -/
structure Query where
  sql : String
  binds : List Bind
  style : PlaceholderStyle
  deriving DecidableEq

namespace Query

/-- The texts of lexemes with numbered placeholders for the slots. -/
def numbered (d : Dialect) (style : PlaceholderStyle) : (index : Nat) → List Lexeme → List String
  | _, [] => []
  | index, .slot b :: ls => style.placeholder index b.name? :: numbered d style (index + 1) ls
  | index, l :: ls => l.text d :: numbered d style index ls

/-- The slots among lexemes. -/
def slots (ls : List Lexeme) : List Bind :=
  ls.filterMap fun
    | .slot b => some b
    | _ => none

def ofLexemes (d : Dialect) (style : PlaceholderStyle) (ls : List Lexeme) : Query :=
  ⟨String.join (numbered d style 1 ls), slots ls, style⟩

/-- The query with the value at every place of that name. -/
def bind (name : String) (v : Value) (q : Query) : Query :=
  { q with binds := q.binds.map fun b =>
      if b.name? = some name then { b with value? := some v } else b }

/-- The query with each value at the places of its name; of several values for one name the last one
counts. -/
def bindAll (pairs : List (String × Value)) (q : Query) : Query :=
  let latest (name : String) : Option Value := (pairs.reverse.find? (·.1 == name)).map (·.2)
  { q with binds := q.binds.map fun b =>
      match b.name?.bind latest with
      | some v => { b with value? := some v }
      | none => b }

/-- The names of the slots without a value, in order. -/
def unbound (q : Query) : List String :=
  (q.binds.filter (·.value?.isNone)).map fun b => b.name?.getD "?"

/-- The values in order, if every slot has one. -/
def values (q : Query) : Except Error (List Value) := q.binds.mapM Bind.value

end Query

/-- The draft as a query in the dialect's own style of placeholder. -/
def Draft.compile (d : Dialect) (a : Draft) : Except Error Query :=
  match a.fault? with
  | none => .ok (.ofLexemes d d.placeholderStyle a.lexemes)
  | some e => .error e

/-! ### Trees and builders -/

namespace Node

/-- The statement of a tree with values in their places. -/
def toSql (d : Dialect) (n : Node) : Except Error String := (n.draft d .statement).toSql d

/-- The statement of a tree with placeholders. -/
def compile (d : Dialect) (n : Node) : Except Error Query := (n.draft d .statement).compile d

end Node

/-- The statement of a builder, unless a clause was put to it that it does not have. -/
def SelectBuilder.draft (d : Dialect) (b : SelectBuilder) : Draft :=
  match b.fault? with
  | some e => .fail e
  | none => (Node.of (.select b.select)).draft d .statement

end SqlTree
