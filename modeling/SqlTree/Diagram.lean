import SqlTree.Node.Fold
import SqlTree.Value.Label

/-!
# SqlTree — diagrams

A tree as a directed graph in the language of a graph drawing tool: a vertex for every construct,
numbered in the order in which a walk from the root meets them, and an edge to every child.  A
vertex shows the kind of its construct and, where there is one, a detail.
-/

namespace SqlTree

structure Vertex where
  id : Nat
  kind : String
  detail? : Option String
  deriving DecidableEq, Repr

structure Diagram where
  vertices : List Vertex
  edges : List (Nat × Nat)
  deriving DecidableEq, Repr

/-- What tells a construct from others of its kind. -/
def Form.detail? {α : Type} : Form α → Option String
  | table t => some t.qualifier
  | tableAlias _ name => some name
  | column c | unqualified c => some (c.table.qualifier ++ "." ++ c.name)
  | sql text => some text
  | quoted value | casted value _ => some value.label
  | param bind => bind.name?
  | unary op _ => some op.label
  | binary op .. => some op.text
  | call c => some c.kind.text
  | extract _ field => some field
  | cast _ typeName => some typeName
  | cte c => some c.name
  | namedWindow w => some w.name
  | bool _ | star | list _ | and _ | matching .. | regexp .. | cases _ | join _ | sortKey _
  | windowed .. | window _ | values _ | select _ | insert _ | update _ | delete _ => none

namespace Diagram

/-- One diagram beside the other. -/
def beside (a b : Diagram) : Diagram := ⟨a.vertices ++ b.vertices, a.edges ++ b.edges⟩

/-- The subtrees of the vertex `parent` beside each other, numbered from `next` on.  The edge to a
child follows the edges inside of it. -/
def forest (parent : Nat) : (next : Nat) → List (Nat → Diagram) → Diagram
  | _, [] => ⟨[], []⟩
  | next, tree :: trees =>
    let child := tree next
    (child.beside ⟨[], [(parent, next)]⟩).beside
      (forest parent (next + child.vertices.length) trees)

end Diagram

/-- The diagram of a construct whose vertex has the number `id`. -/
def Form.diagram (form : Form (Node × (Nat → Diagram))) (id : Nat) : Diagram :=
  let vertex : Vertex := ⟨id, form.kind, form.detail?⟩
  Diagram.beside ⟨[vertex], []⟩ (Diagram.forest id (id + 1) (form.children.map (·.2)))

def Node.diagram (n : Node) : Diagram := n.fold Form.diagram 0

/-! ### Text -/

/-- A character with a meaning of its own in a label. -/
def isLabelSign (c : Char) : Bool :=
  c == '"' || c == '\\' || c == '\x7b' || c == '\x7d' || c == '|' || c == '<' || c == '>'

/-- The text of a label, with a backslash before every sign in it. -/
def escapeLabel (text : String) : String :=
  String.ofList (text.toList.flatMap fun c => if isLabelSign c then ['\\', c] else [c])

def Vertex.text (v : Vertex) : String :=
  let detail := (v.detail?.map fun detail => "|" ++ escapeLabel detail).getD ""
  toString v.id ++ " [label=\"<f0>" ++ v.kind ++ detail ++ "\"];\n"

def edgeText (edge : Nat × Nat) : String := toString edge.1 ++ " -> " ++ toString edge.2 ++ ";\n"

def Diagram.text (g : Diagram) : String :=
  "digraph \"Arel\" \x7b\nnode [width=0.375,height=0.25,shape=record];\n" ++
    String.join (g.vertices.map Vertex.text) ++ String.join (g.edges.map edgeText) ++ "\x7d\n"

end SqlTree
