import SqlTree.Clause.Call
import SqlTree.Operator
import SqlTree.Statement.Mutation
import SqlTree.Value.Basic

/-!
# SqlTree — Node — forms

A form is one layer of a statement tree: a construct of SQL whose immediate subtrees have type `α`.
A tree is a form of trees (`Node`).  Whatever is decided at one construct from what its subtrees
gave is a function on forms, and recursion over the tree is written only once.

`Form.map` changes the subtrees; `Form.parts` lists all of them; `Form.children` lists those that a
reader of the tree is shown, in the order in which they are written.
-/

namespace SqlTree

/-- A parameter of a query, or the slot that holds a value.  It may have a name and a value. -/
structure Bind where
  name? : Option String := none
  value? : Option Value := none
  deriving DecidableEq

inductive Form (α : Type) where
  | table (t : Table)
  /-- A relation under another name. -/
  | tableAlias (relation : α) (name : String)
  | column (c : Column)
  /-- A column without its table. -/
  | unqualified (c : Column)
  /-- SQL that the caller spells. -/
  | sql (text : String)
  | quoted (value : Value)
  /-- A value compared with a column. -/
  | casted (value : Value) (column : Column)
  | param (bind : Bind)
  | bool (b : Bool)
  | star
  | list (items : List α)
  | unary (op : UnaryOperator) (operand : α)
  | binary (op : BinaryOperator) (left right : α)
  /-- The conjunction of all items. -/
  | and (items : List α)
  | matching (left right : α) (escape? : Option String) (caseSensitive negated : Bool)
  | regexp (left right : α) (caseSensitive negated : Bool)
  | call (c : Call α)
  | extract (expr : α) (field : String)
  | cast (expr : α) (typeName : String)
  | cases (c : Case α)
  | join (j : Join α)
  | sortKey (k : SortKey α)
  /-- An expression computed over a window. -/
  | windowed (expr : α) (window : WindowRef α)
  | window (w : Window α)
  | namedWindow (w : NamedWindow α)
  | cte (c : Cte α)
  | values (rows : List (List α))
  | select (s : Select α)
  | insert (s : Insert α)
  | update (s : Update α)
  | delete (s : Delete α)
  deriving DecidableEq

namespace Form

variable {α β : Type}

def map (f : α → β) : Form α → Form β
  | table t => .table t
  | tableAlias relation name => .tableAlias (f relation) name
  | column c => .column c
  | unqualified c => .unqualified c
  | sql text => .sql text
  | quoted value => .quoted value
  | casted value c => .casted value c
  | param b => .param b
  | bool b => .bool b
  | star => .star
  | list items => .list (items.map f)
  | unary op operand => .unary op (f operand)
  | binary op left right => .binary op (f left) (f right)
  | and items => .and (items.map f)
  | matching left right escape? sensitive negated =>
    .matching (f left) (f right) escape? sensitive negated
  | regexp left right sensitive negated => .regexp (f left) (f right) sensitive negated
  | call c => .call (c.map f)
  | extract expr field => .extract (f expr) field
  | cast expr typeName => .cast (f expr) typeName
  | cases c => .cases (c.map f)
  | join j => .join (j.map f)
  | sortKey k => .sortKey (k.map f)
  | windowed expr w => .windowed (f expr) (w.map f)
  | window w => .window (w.map f)
  | namedWindow w => .namedWindow (w.map f)
  | cte c => .cte (c.map f)
  | values rows => .values (rows.map (·.map f))
  | select s => .select (s.map f)
  | insert s => .insert (s.map f)
  | update s => .update (s.map f)
  | delete s => .delete (s.map f)

/-- The subtrees that a reader of the tree is shown, in the order in which they are written. -/
def children : Form α → List α
  | table _ | column _ | unqualified _ | sql _ | quoted _ | casted .. | param _ | bool _ | star =>
    []
  | tableAlias e _ | unary _ e | extract e _ | cast e _ => [e]
  | list items | and items => items
  | binary _ left right | matching left right .. | regexp left right .. => [left, right]
  | call c => c.arguments
  | cases c => c.parts
  | join j => j.parts
  | sortKey k => [k.expr]
  | windowed expr w => expr :: w.parts
  | window w => w.parts
  | namedWindow w => w.window.parts
  | cte c => [c.relation]
  | values rows => rows.flatten
  | select s => s.children
  | insert s => (s.source?.map InsertSource.children).getD []
  | update s => s.children
  | delete s => s.children

/-- All subtrees: besides the children these are the keys of UPDATE and DELETE and the expressions
of DISTINCT ON. -/
def parts : Form α → List α
  | select s => s.parts
  | insert s => (s.source?.map InsertSource.parts).getD []
  | update s => s.children ++ s.rows.key?.toList
  | delete s => s.children ++ s.rows.key?.toList
  | form => form.children

/-- The form with its subtrees left out. -/
def shape (form : Form α) : Form Unit := form.map fun _ => ()

/-- The name of the construct. -/
def kind : Form α → String
  | table _ => "Table"
  | tableAlias .. => "TableAlias"
  | column _ => "Attribute"
  | unqualified _ => "UnqualifiedColumn"
  | sql _ => "SqlLiteral"
  | quoted _ => "Quoted"
  | casted .. => "Casted"
  | param _ => "BindParam"
  | bool true => "True"
  | bool false => "False"
  | star => "Star"
  | list _ => "List"
  | unary .. => "Unary"
  | binary .. => "Binary"
  | and _ => "And"
  | matching .. => "Matches"
  | regexp .. => "Regexp"
  | call _ => "Function"
  | extract .. => "Extract"
  | cast .. => "Cast"
  | cases _ => "Case"
  | join _ => "Join"
  | sortKey _ => "Ordering"
  | windowed .. => "Over"
  | window _ => "Window"
  | namedWindow _ => "NamedWindow"
  | cte _ => "Cte"
  | values _ => "ValuesList"
  | select _ => "SelectStatement"
  | insert _ => "InsertStatement"
  | update _ => "UpdateStatement"
  | delete _ => "DeleteStatement"

end Form

end SqlTree
