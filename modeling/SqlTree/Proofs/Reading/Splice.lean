import SqlTree.Sql.Collector

/-!
# SqlTree — Proofs — a collected query

What was called on a collector is text with slots between: each slot with the text before it, and
the text after the last one (`Pieces`).  A collector is the pieces run together, with the bytes
counted (`Pieces.collector`), and a call on it is a call on the pieces (`Pieces.collector_after`),
so that every slot is at the end of a piece, whatever the pieces say: never inside a character, and
never before an earlier slot.

* `Collector.finish_run`: any calls on a fresh collector, in any style.  Finishing gives a query; its
  text is that of the calls in order, with a placeholder for each slot, and its binds are those of
  the calls.
* `Collector.finish_run_lexemes`: a draft that is collected lexeme by lexeme gives the query of its
  lexemes.
-/

namespace SqlTree

namespace Collector

/-! ### What calls come to -/

/-- The texts of calls, with numbered placeholders for the slots. -/
def texts (style : PlaceholderStyle) : (index : Nat) → List Call → List String
  | _, [] => []
  | index, .pushText text :: calls => text :: texts style index calls
  | index, .pushChar char :: calls => String.singleton char :: texts style index calls
  | index, .addBind b :: calls => style.placeholder index b.name? :: texts style (index + 1) calls

/-- What is to be bound by calls, in order. -/
def bound (calls : List Call) : List Bind :=
  calls.filterMap fun
    | .addBind b => some b
    | .pushText _ | .pushChar _ => none

/-! ### Slices -/

/-- The place between the two parts of a text. -/
theorem exists_pos?_of_append {text a b : String} (h : text = a ++ b) :
    ∃ p : text.Pos, text.pos? ⟨a.utf8ByteSize⟩ = some p ∧ p.Splits a b := by
  subst h
  have valid : (String.Pos.Raw.mk a.utf8ByteSize).IsValid (a ++ b) :=
    String.Pos.Raw.isValid_iff_exists_append.mpr ⟨a, b, rfl, rfl⟩
  refine ⟨(a ++ b).pos _ valid, ?_, rfl, rfl⟩
  rw [String.pos?, String.Slice.pos?,
    dif_pos (String.Pos.Raw.isValidForSlice_eq_true_iff.mpr valid.toSlice)]
  rfl

theorem slice?_of_append {text a b c : String} (h : text = a ++ b ++ c) :
    slice? text a.utf8ByteSize (a ++ b).utf8ByteSize = some b := by
  obtain ⟨p, hp, before⟩ := exists_pos?_of_append (h.trans String.append_assoc)
  obtain ⟨q, hq, after⟩ := exists_pos?_of_append h
  obtain ⟨hle, copied⟩ := String.copy_slice_eq_iff_splits.mpr ⟨a, c, before, after⟩
  have part : text.slice? p q = some (text.slice p q hle) := dif_pos hle
  simp only [slice?, hp, hq, part, Option.bind_eq_bind, Option.bind_some]
  exact congrArg some copied

end Collector

/-! ### Pieces -/

/-- Slots, each with the text before it, and the text after them. -/
structure Pieces where
  slots : List (String × Bind) := []
  rest : String := ""

namespace Pieces

def text (p : Pieces) : String := String.join (p.slots.map Prod.fst) ++ p.rest

def binds (p : Pieces) : List Bind := p.slots.map Prod.snd

/-- Where the slots are, with so many bytes before them all. -/
def places : (start : Nat) → List (String × Bind) → List Nat
  | _, [] => []
  | start, slot :: slots =>
    (start + slot.1.utf8ByteSize) :: places (start + slot.1.utf8ByteSize) slots

/-- What is collected when these pieces are. -/
def collector (p : Pieces) : Collector := ⟨p.text, places 0 p.slots, p.binds⟩

/-- The text with numbered placeholders for the slots. -/
def spliced (style : PlaceholderStyle) (rest : String) :
    (index : Nat) → List (String × Bind) → String
  | _, [] => rest
  | index, slot :: slots =>
    slot.1 ++ style.placeholder index slot.2.name? ++ spliced style rest (index + 1) slots

/-- A call on the pieces. -/
def after (p : Pieces) : Collector.Call → Pieces
  | .pushText text => { p with rest := p.rest ++ text }
  | .pushChar char => { p with rest := p.rest ++ String.singleton char }
  | .addBind b => ⟨p.slots ++ [(p.rest, b)], ""⟩

/-! ### A call -/

theorem places_concat (start : Nat) (slots : List (String × Bind)) (slot : String × Bind) :
    places start (slots ++ [slot]) =
      places start slots ++
        [start + (String.join (slots.map Prod.fst) ++ slot.1).utf8ByteSize] := by
  induction slots generalizing start with
  | nil => rw [List.map_nil, String.join_nil, String.empty_append]; rfl
  | cons first slots ih =>
      have last : start + first.1.utf8ByteSize +
            (String.join (slots.map Prod.fst) ++ slot.1).utf8ByteSize =
          start + (String.join ((first :: slots).map Prod.fst) ++ slot.1).utf8ByteSize := by
        rw [List.map_cons, String.join_cons, String.append_assoc, Nat.add_assoc,
          ← String.utf8ByteSize_append]
      rw [List.cons_append, places, places, ih, last, List.cons_append]

/-- A call on the pieces is a call on the collector. -/
theorem collector_after (p : Pieces) (call : Collector.Call) :
    (p.after call).collector = call.after p.collector := by
  cases call with
  | pushText text =>
      have grown : (p.after (.pushText text)).text = p.text ++ text := String.append_assoc.symm
      exact congrArg (Collector.mk · _ _) grown
  | pushChar char =>
      have grown : (p.after (.pushChar char)).text = p.text.push char := by
        rw [String.push_eq_append]
        exact String.append_assoc.symm
      exact congrArg (Collector.mk · _ _) grown
  | addBind b =>
      have same_text : (p.after (.addBind b)).text = p.text := by
        rw [text, after, List.map_append, String.join_append, String.append_empty]
        rw [List.map_singleton, String.join_cons, String.join_nil, String.append_empty, text]
      have one_place : places 0 (p.after (.addBind b)).slots =
          places 0 p.slots ++ [p.text.utf8ByteSize] := by
        rw [after, places_concat, Nat.zero_add, text]
      have one_bind : (p.after (.addBind b)).binds = p.binds ++ [b] := List.map_append
      rw [collector, same_text, one_place, one_bind]
      rfl

theorem collector_run (calls : List Collector.Call) (p : Pieces) :
    (calls.foldl after p).collector = Collector.run calls p.collector := by
  induction calls generalizing p with
  | nil => rfl
  | cons call calls ih =>
      exact (ih (p.after call)).trans (congrArg (Collector.run calls) (p.collector_after call))

theorem binds_run (calls : List Collector.Call) (p : Pieces) :
    (calls.foldl after p).binds = p.binds ++ Collector.bound calls := by
  induction calls generalizing p with
  | nil => exact (List.append_nil _).symm
  | cons call calls ih =>
      rw [List.foldl_cons, ih]
      cases call with
      | pushText text => rfl
      | pushChar char => rfl
      | addBind b =>
          have one_bind : (p.after (.addBind b)).binds = p.binds ++ [b] := List.map_append
          rw [one_bind, List.append_assoc]
          rfl

/-! ### The text of the query -/

section
variable (style : PlaceholderStyle)

theorem spliced_append (rest text : String) (index : Nat) (slots : List (String × Bind)) :
    spliced style (rest ++ text) index slots = spliced style rest index slots ++ text := by
  induction slots generalizing index with
  | nil => rfl
  | cons slot slots ih =>
      rw [spliced, ih, spliced]
      exact String.append_assoc.symm

theorem spliced_concat (rest : String) (b : Bind) (index : Nat) (slots : List (String × Bind)) :
    spliced style "" index (slots ++ [(rest, b)]) =
      spliced style rest index slots ++ style.placeholder (index + slots.length) b.name? := by
  induction slots generalizing index with
  | nil => exact String.append_empty
  | cons slot slots ih =>
      rw [List.cons_append, spliced, ih, spliced, List.length_cons, Nat.add_right_comm]
      exact String.append_assoc.symm

theorem spliced_run (calls : List Collector.Call) (p : Pieces) (index : Nat) :
    spliced style (calls.foldl after p).rest index (calls.foldl after p).slots =
      spliced style p.rest index p.slots ++
        String.join (Collector.texts style (index + p.slots.length) calls) := by
  induction calls generalizing p with
  | nil => exact String.append_empty.symm
  | cons call calls ih =>
      rw [List.foldl_cons, ih]
      cases call with
      | pushText text =>
          rw [Collector.texts, String.join_cons, ← String.append_assoc]
          exact congrArg (· ++ _) (spliced_append style p.rest text index p.slots)
      | pushChar char =>
          rw [Collector.texts, String.join_cons, ← String.append_assoc]
          exact congrArg (· ++ _) (spliced_append style p.rest _ index p.slots)
      | addBind b =>
          rw [Collector.texts, String.join_cons, ← String.append_assoc, after, spliced_concat,
            List.length_append]
          rfl

/-- Every slot is at the end of its piece, so that the slices are the pieces. -/
theorem splice_places {text rest : String} {slots : List (String × Bind)} {before : String}
    (h : text = before ++ (String.join (slots.map Prod.fst) ++ rest)) (index : Nat) :
    Collector.splice style text index before.utf8ByteSize
        ((places before.utf8ByteSize slots).zip (slots.map Prod.snd)) =
      some (spliced style rest index slots) := by
  induction slots generalizing before index with
  | nil =>
      have whole : text = before ++ rest := by
        rw [h, List.map_nil, String.join_nil, String.empty_append]
      have part := Collector.slice?_of_append (whole.trans String.append_empty.symm)
      rwa [← whole] at part
  | cons slot slots ih =>
      have split : text = before ++ slot.1 ++ (String.join (slots.map Prod.fst) ++ rest) := by
        rw [h, List.map_cons, String.join_cons, String.append_assoc, String.append_assoc]
      have part := Collector.slice?_of_append split
      have later := ih split (index + 1)
      rw [String.utf8ByteSize_append] at part later
      rw [places, List.map_cons, List.zip_cons_cons, Collector.splice, part, later, spliced]
      rfl

theorem finish_collector (p : Pieces) :
    p.collector.finish style = some ⟨spliced style p.rest 1 p.slots, p.binds, style⟩ := by
  have whole : p.text = "" ++ (String.join (p.slots.map Prod.fst) ++ p.rest) :=
    String.empty_append.symm
  have sql := splice_places style whole 1
  rw [String.utf8ByteSize_empty] at sql
  rw [Collector.finish, collector, binds, sql]
  rfl

/-- The pieces that calls leave finish as the texts of the calls. -/
theorem finish_foldl_after (calls : List Collector.Call) :
    (calls.foldl after {}).collector.finish style =
      some ⟨String.join (Collector.texts style 1 calls), Collector.bound calls, style⟩ := by
  have binds : (calls.foldl after {}).binds = Collector.bound calls :=
    (binds_run calls {}).trans (List.nil_append _)
  rw [finish_collector, spliced_run, binds]
  exact congrArg (fun sql => some (Query.mk sql _ _)) String.empty_append

end

end Pieces

/-! ### Runs -/

namespace Collector

/-- **A collector finishes**, whatever was called on it: no slot is beyond the text, inside a
character or before an earlier slot.  The query has the texts of the calls, in order, with the
placeholder of its number and name for each slot, and what was to be bound, in order; only the
placeholders depend on the style. -/
theorem finish_run (calls : List Call) (style : PlaceholderStyle) :
    (run calls {}).finish style = some ⟨String.join (texts style 1 calls), bound calls, style⟩ := by
  have collected : run calls {} = (calls.foldl Pieces.after {}).collector :=
    (Pieces.collector_run calls {}).symm
  rw [collected, Pieces.finish_foldl_after]

theorem texts_lexemes (d : Dialect) (style : PlaceholderStyle) (index : Nat) (ls : List Lexeme) :
    texts style index (ls.map (Lexeme.call d)) = Query.numbered d style index ls := by
  induction ls generalizing index with
  | nil => rfl
  | cons l ls ih =>
      cases l with
      | slot b => exact congrArg _ (ih (index + 1))
      | _ => exact congrArg _ (ih index)

theorem bound_lexemes (d : Dialect) (ls : List Lexeme) :
    bound (ls.map (Lexeme.call d)) = Query.slots ls := by
  rw [bound, List.filterMap_map, Query.slots]
  refine congrArg (List.filterMap · ls) ?_
  funext l
  cases l <;> rfl

/-- **A draft that is collected lexeme by lexeme** gives the query of its lexemes. -/
theorem finish_run_lexemes (d : Dialect) (style : PlaceholderStyle) (ls : List Lexeme) :
    (run (ls.map (Lexeme.call d)) {}).finish style = some (Query.ofLexemes d style ls) := by
  have collected : run (ls.map (Lexeme.call d)) {} = _ := (Pieces.collector_run _ {}).symm
  rw [collected, Pieces.finish_foldl_after, texts_lexemes, bound_lexemes, Query.ofLexemes]

end Collector

end SqlTree
