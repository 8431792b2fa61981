import Mathlib.Data.List.Infix
import SqlTree.Proofs.Diagram.Layout
import SqlTree.Proofs.Lexing.Quoted
import SqlTree.Proofs.Lexing.Runs

/-!
# SqlTree — Proofs — a diagram is read back from its text

The text of a diagram is read vertex by vertex, and then edge by edge (`Diagram.read?`).  In a label
a backslash takes the character after it as it is, a bar ends the kind, and the first quote with no
backslash before it ends the label, wherever its line ends.  So a detail may hold what looks like
the lines of other vertices.

* `Diagram.read?_text`: a diagram whose kinds are plain words is read back from its text.
* `Node.draws_of_text`: the text of a tree's diagram is read as a diagram that draws the tree, and
  trees with the same text look the same.
-/

namespace SqlTree

/-! ### Plain kinds -/

theorem Form.isPlain_kind {α : Type} (form : Form α) :
    form.kind.toList.all (!isLabelSign ·) = true := by
  cases form with
  | bool b => cases b <;> simp [Form.kind, isLabelSign]
  | _ => simp [Form.kind, isLabelSign]

/-- A word without a sign is its own label. -/
theorem escapeLabel_of_plain {text : String} (h : text.toList.all (!isLabelSign ·) = true) :
    escapeLabel text = text := by
  have plain : text.toList.flatMap (fun c => if isLabelSign c then ['\\', c] else [c]) =
      text.toList.flatMap ([·]) := by
    refine List.flatMap_congr fun c hc => if_neg ?_
    simpa using List.all_eq_true.mp h c hc
  rw [escapeLabel, plain, List.flatMap_singleton', String.ofList_toList]

namespace Diagram

/-! ### Readers -/

/-- What follows the literal. -/
def skip (literal : String) (cs : List Char) : Option (List Char) :=
  literal.toList.isPrefixOf? cs

/-- A number in base ten, and what follows it. -/
def readNumber (cs : List Char) : Option (Nat × List Char) :=
  match cs.takeWhile Char.isDigit with
  | [] => none
  | ds => some (Nat.ofDigitChars 10 ds 0, cs.dropWhile Char.isDigit)

/-- A field of a label up to the sign that ends it, and what follows from that sign on. -/
def readField : (escaped : Bool) → List Char → List Char × List Char
  | _, [] => ([], [])
  | true, c :: cs => readBefore [c] (readField false cs)
  | false, c :: cs =>
    if c = '\\' then readField true cs
    else if c = '"' ∨ c = '|' then ([], c :: cs)
    else readBefore [c] (readField false cs)

/-- The second field of a label, if there is one. -/
def readDetail (cs : List Char) : Option String × List Char :=
  match skip "|" cs with
  | some cs => (some (String.ofList (readField false cs).1), (readField false cs).2)
  | none => (none, cs)

def readVertex (cs : List Char) : Option (Vertex × List Char) := do
  let id ← readNumber cs
  let label ← skip " [label=\"<f0>" id.2
  let kind := readField false label
  let detail := readDetail kind.2
  let rest ← skip "\"];\n" detail.2
  return (⟨id.1, String.ofList kind.1, detail.1⟩, rest)

def readEdge (cs : List Char) : Option ((Nat × Nat) × List Char) := do
  let source ← readNumber cs
  let arrow ← skip " -> " source.2
  let target ← readNumber arrow
  let rest ← skip ";\n" target.2
  return ((source.1, target.1), rest)

/-- All that can be read one after the other, and what follows it. -/
def readAll {α : Type} (read : List Char → Option (α × List Char)) :
    (fuel : Nat) → List Char → List α × List Char
  | 0, cs => ([], cs)
  | fuel + 1, cs =>
    match read cs with
    | some (x, rest) => (x :: (readAll read fuel rest).1, (readAll read fuel rest).2)
    | none => ([], cs)

/-- The diagram with this text.  Nothing may follow it. -/
def read? (text : String) : Option Diagram := do
  let opening := "digraph \"Arel\" \x7b\nnode [width=0.375,height=0.25,shape=record];\n"
  let lines ← skip opening text.toList
  let vertices := readAll readVertex lines.length lines
  let edges := readAll readEdge vertices.2.length vertices.2
  let rest ← skip "\x7d\n" edges.2
  if rest.isEmpty then some ⟨vertices.1, edges.1⟩ else none

/-! ### Reading what was written -/

theorem skip_append (literal : String) (cs : List Char) :
    skip literal (literal.toList ++ cs) = some cs :=
  List.isPrefixOf?_eq_some_iff_append_eq.mpr rfl

theorem readNumber_toString (n : Nat) {cs : List Char} (stops : cs.head?.all (!·.isDigit) = true) :
    readNumber ((toString n).toList ++ cs) = some (n, cs) := by
  have digits : (toString n).toList = Nat.toDigits 10 n := by simp
  have all : ∀ c ∈ Nat.toDigits 10 n, c.isDigit = true := fun c hc =>
    Nat.isDigit_of_mem_toDigits (by decide) (by decide) hc
  have none_taken : cs.takeWhile Char.isDigit = [] ∧ cs.dropWhile Char.isDigit = cs :=
    Text.takeWhile_dropWhile_of_head? fun c hc => by simpa [Option.mem_def.mp hc] using stops
  rw [digits, readNumber, List.takeWhile_append_of_pos all, List.dropWhile_append_of_pos all,
    none_taken.1, none_taken.2, List.append_nil]
  cases hds : Nat.toDigits 10 n with
  | nil => exact absurd hds Nat.toDigits_ne_nil
  | cons d ds =>
      show some (Nat.ofDigitChars 10 (d :: ds) 0, cs) = _
      rw [← hds, Nat.ofDigitChars_ten_toDigits]

/-- Every sign in a field has a backslash before it, so that the field ends with the first sign
that has none. -/
theorem readField_escapeLabel (text : String) {stop : Char} (hstop : stop = '"' ∨ stop = '|')
    (cs : List Char) :
    readField false ((escapeLabel text).toList ++ stop :: cs) = (text.toList, stop :: cs) := by
  have stops : readField false (stop :: cs) = ([], stop :: cs) := by
    have quote : stop ≠ '\\' := by
      obtain rfl | rfl := hstop
      · decide
      · decide
    rw [readField, if_neg quote, if_pos hstop]
  rw [escapeLabel, String.toList_ofList]
  generalize text.toList = s
  induction s with
  | nil => exact stops
  | cons c s ih =>
      rw [List.flatMap_cons, List.append_assoc]
      by_cases sign : isLabelSign c = true
      · rw [if_pos sign]
        show readField true (c :: (_ ++ stop :: cs)) = _
        rw [readField, ih]
        rfl
      · have plain : c ≠ '\\' ∧ ¬(c = '"' ∨ c = '|') := by
          simp only [isLabelSign, Bool.or_eq_true, beq_iff_eq] at sign
          tauto
        rw [if_neg sign, List.singleton_append, readField, if_neg plain.1, if_neg plain.2, ih]
        rfl

theorem readVertex_text (v : Vertex) (plain : v.kind.toList.all (!isLabelSign ·) = true)
    (cs : List Char) : readVertex (v.text.toList ++ cs) = some (v, cs) := by
  obtain ⟨id, kind, detail?⟩ := v
  have kind_label : kind.toList = (escapeLabel kind).toList := by rw [escapeLabel_of_plain plain]
  -- the text of the vertex from its kind on
  have detail : ∀ detail? : Option String, ∃ stop rest, (stop = '"' ∨ stop = '|') ∧
      ((detail?.map fun detail => "|" ++ escapeLabel detail).getD "" ++ "\"];\n").toList ++ cs =
        stop :: rest ∧ readDetail (stop :: rest) = (detail?, "\"];\n".toList ++ cs) := by
    intro detail?
    cases detail? with
    | none => exact ⟨'"', _, .inl rfl, rfl, rfl⟩
    | some text =>
        refine ⟨'|', (escapeLabel text).toList ++ '"' :: ("];\n".toList ++ cs), .inr rfl, ?_, ?_⟩
        · simp [String.toList_append]
        · have field := readField_escapeLabel text (.inl rfl) ("];\n".toList ++ cs)
          show (some (String.ofList (readField false _).1), (readField false _).2) = _
          rw [field, String.ofList_toList]
          rfl
  obtain ⟨stop, rest, hstop, htext, hdetail⟩ := detail detail?
  have split : Vertex.text ⟨id, kind, detail?⟩ = toString id ++ (" [label=\"<f0>" ++ (kind ++
      ((detail?.map fun detail => "|" ++ escapeLabel detail).getD "" ++ "\"];\n"))) := by
    simp only [Vertex.text, String.append_assoc]
  have label : readField false (kind.toList ++ stop :: rest) = (kind.toList, stop :: rest) := by
    have field := readField_escapeLabel kind hstop rest
    rwa [← kind_label] at field
  have number : readNumber ((toString id).toList ++ (" [label=\"<f0>".toList ++
      (kind.toList ++ stop :: rest))) = some (id, " [label=\"<f0>".toList ++ _) :=
    readNumber_toString id (by simp)
  rw [split]
  simp only [String.toList_append, List.append_assoc] at htext ⊢
  rw [htext, readVertex, number]
  simp only [Option.bind_eq_bind, Option.bind_some, skip_append, label, hdetail,
    String.ofList_toList]
  rfl

/-- The number that an edge leaves from. -/
theorem readNumber_source (n : Nat) (cs : List Char) :
    readNumber ((toString n).toList ++ (" -> ".toList ++ cs)) = some (n, " -> ".toList ++ cs) :=
  readNumber_toString n (by simp)

theorem readEdge_text (e : Nat × Nat) (cs : List Char) :
    readEdge ((edgeText e).toList ++ cs) = some (e, cs) := by
  have target : readNumber ((toString e.2).toList ++ (";\n".toList ++ cs)) =
      some (e.2, ";\n".toList ++ cs) := readNumber_toString e.2 (by simp)
  rw [edgeText]
  simp only [String.toList_append, List.append_assoc]
  rw [readEdge, readNumber_source]
  simp only [Option.bind_eq_bind, Option.bind_some, skip_append, target]
  rfl

/-- An edge is no vertex. -/
theorem readVertex_edgeText (e : Nat × Nat) (cs : List Char) :
    readVertex ((edgeText e).toList ++ cs) = none := by
  rw [edgeText]
  simp only [String.toList_append, List.append_assoc]
  rw [readVertex, readNumber_source]
  rfl

/-- What was written one after the other is read up to what cannot be read. -/
theorem readAll_flatMap {α : Type} {read : List Char → Option (α × List Char)}
    {write : α → List Char} {tail : List Char} (stops : read tail = none) {xs : List α}
    (h : ∀ x ∈ xs, ∀ rest, read (write x ++ rest) = some (x, rest)) {fuel : Nat}
    (enough : xs.length ≤ fuel) : readAll read fuel (xs.flatMap write ++ tail) = (xs, tail) := by
  induction xs generalizing fuel with
  | nil =>
      cases fuel with
      | zero => rfl
      | succ fuel =>
          show readAll read (fuel + 1) tail = _
          rw [readAll, stops]
  | cons x xs ih =>
      cases fuel with
      | zero => exact absurd enough (Nat.not_succ_le_zero _)
      | succ fuel =>
          have first := h x List.mem_cons_self (xs.flatMap write ++ tail)
          have others := ih (fun y hy => h y (List.mem_cons_of_mem _ hy))
            (Nat.le_of_succ_le_succ enough)
          rw [List.flatMap_cons, List.append_assoc, readAll, first]
          simp only [others]

/-- The text is long enough to count what is written in it. -/
theorem length_le_flatMap {α : Type} {write : α → List Char} (pos : ∀ x, write x ≠ [])
    (xs : List α) (tail : List Char) : xs.length ≤ (xs.flatMap write ++ tail).length := by
  induction xs with
  | nil => exact Nat.zero_le _
  | cons x xs ih =>
      have := List.length_pos_iff.mpr (pos x)
      rw [List.length_append] at ih
      rw [List.flatMap_cons, List.length_append, List.length_append, List.length_cons]
      omega

theorem toList_framed (opening closing : String) (texts texts' : List String) :
    (opening ++ String.join texts ++ String.join texts' ++ closing).toList = opening.toList ++
      (texts.flatMap String.toList ++ (texts'.flatMap String.toList ++ closing.toList)) := by
  simp only [String.toList_append, String.toList_join, List.append_assoc]

theorem toList_text (g : Diagram) : g.text.toList =
    "digraph \"Arel\" \x7b\nnode [width=0.375,height=0.25,shape=record];\n".toList ++
      (g.vertices.flatMap (·.text.toList) ++
        (g.edges.flatMap (fun e => (edgeText e).toList) ++ "\x7d\n".toList)) := by
  unfold Diagram.text
  rw [toList_framed, List.flatMap_map, List.flatMap_map]

/-- **A diagram is read back from its text**, whatever the details of its vertices. -/
theorem read?_text (g : Diagram)
    (plain : ∀ v ∈ g.vertices, v.kind.toList.all (!isLabelSign ·) = true) :
    read? g.text = some g := by
  have vertices : readVertex (g.edges.flatMap (fun e => (edgeText e).toList) ++ "\x7d\n".toList) =
      none := by
    cases g.edges with
    | nil => rfl
    | cons e es => rw [List.flatMap_cons, List.append_assoc, readVertex_edgeText]
  rw [read?, toList_text]
  simp only [Option.bind_eq_bind, skip_append, Option.bind_some]
  rw [readAll_flatMap vertices (fun v hv rest => readVertex_text v (plain v hv) rest)
      (length_le_flatMap (fun v => by simp [Vertex.text, String.toList_append]) ..),
    readAll_flatMap rfl (fun e _ rest => readEdge_text e rest)
      (length_le_flatMap (fun e => by simp [edgeText, String.toList_append]) ..)]
  rfl

end Diagram

namespace Node

theorem read?_diagram (n : Node) : Diagram.read? n.diagram.text = some n.diagram := by
  refine n.diagram.read?_text fun v hv => ?_
  rw [n.diagram_draws.vertices] at hv
  obtain ⟨p, -, rfl⟩ := List.mem_map.mp hv
  exact p.1.form.isPlain_kind

/-- **The text of a diagram can be decoded.**  It is read as a diagram that draws the tree, and
trees with the same text are the same tree of kinds and details. -/
theorem draws_of_text (n : Node) :
    (∃ g, Diagram.read? n.diagram.text = some g ∧ g.Draws n) ∧
      ∀ m : Node, m.diagram.text = n.diagram.text → m.sketch = n.sketch := by
  refine ⟨⟨n.diagram, n.read?_diagram, n.diagram_draws⟩, fun m h => ?_⟩
  have same : some m.diagram = some n.diagram := by
    rw [← m.read?_diagram, ← n.read?_diagram, h]
  have drawn := m.diagram_draws
  rw [Option.some.inj same] at drawn
  exact drawn.sketch_eq n.diagram_draws

end Node

end SqlTree
