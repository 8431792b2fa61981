import SqlTree.Builder.Mutation
import Mathlib.Algebra.Order.BigOperators.Group.List

/-!
# SqlTree — Proofs — the rows of an INSERT

The calls on an INSERT are for three fields of it: the target, the columns and the source of the
rows.  The columns only grow (`InsertStep.columns_run`).  A row of values is added to those there
are, and a row of pairs takes their place.

* `Insert.rows_of_pairs_then_values`: one call with pairs, then any rows of values: the rows are
  those of the calls, in order, and each is as wide as the list of columns if the rows of values are.
* `Insert.ofPairs_of_same`: calls with pairs only, all for the same columns.  The columns are
  repeated for each call and the row is that of the last call, so that rows and columns are those of
  the calls exactly if there is no second call.
-/

namespace SqlTree

/-- A call on an INSERT. -/
inductive InsertStep where
  | into (t : Table)
  | addColumns (columns : List Column)
  | addRow (values : List Operand)
  | addRows (rows : List (List Operand))
  | assign (pairs : List (Column × Operand))
  | fromSelect (query : Select Node)

namespace InsertStep

def after : InsertStep → Insert Node → Insert Node
  | into t => .into t
  | addColumns columns => .addColumns columns
  | addRow values => .addRow values
  | addRows rows => .addRows rows
  | assign pairs => .assign pairs
  | fromSelect query => .fromSelect query

def run (steps : List InsertStep) (s : Insert Node) : Insert Node :=
  steps.foldl (fun s step => step.after s) s

/-- The columns that a call names. -/
def columns : InsertStep → List Column
  | addColumns columns => columns
  | assign pairs => pairs.map Prod.fst
  | into _ | addRow _ | addRows _ | fromSelect _ => []

theorem run_append (steps steps' : List InsertStep) (s : Insert Node) :
    run (steps ++ steps') s = run steps' (run steps s) :=
  List.foldl_append

end InsertStep

namespace Insert

open InsertStep (run)

/-- The rows of values, if it is values that are inserted. -/
def rows {α : Type} (s : Insert α) : List (List α) :=
  match s.source? with
  | some (.values rows) => rows
  | some (.select _) | none => []

/-- The statement that calls with pairs make. -/
def ofPairs (calls : List (List (Column × Operand))) : Insert Node := run (calls.map .assign) {}

/-- The values of pairs, each set against its own column. -/
def assigned (pairs : List (Column × Operand)) : List Node :=
  pairs.map fun p => p.2.against (.column p.1)

@[simp] theorem length_assigned (pairs : List (Column × Operand)) :
    (assigned pairs).length = pairs.length :=
  List.length_map ..

@[simp] theorem length_row (columns : List Column) (values : List Operand) :
    (row columns values).length = values.length := by
  fun_induction row columns values with
  | case1 => rfl
  | case2 x values ih => exact congrArg _ ih
  | case3 c columns x values ih => exact congrArg _ ih

/-! ### What a call does -/

variable (s : Insert Node)

theorem columns_addRow (values : List Operand) : (s.addRow values).columns = s.columns := rfl

/-- A row of values comes after the rows there are. -/
theorem rows_addRow (values : List Operand) :
    (s.addRow values).rows = s.rows ++ [row s.columns values] := by
  obtain ⟨table?, columns, _ | ⟨rows | query⟩⟩ := s <;> rfl

theorem columns_addRows (rows : List (List Operand)) : (s.addRows rows).columns = s.columns := by
  induction rows generalizing s with
  | nil => rfl
  | cons values rows ih => exact (ih (s.addRow values)).trans (s.columns_addRow values)

theorem columns_assign (pairs : List (Column × Operand)) :
    (s.assign pairs).columns = s.columns ++ pairs.map Prod.fst := rfl

/-- A row of pairs takes the place of the rows there are. -/
theorem rows_assign {pairs : List (Column × Operand)} (some_pair : pairs ≠ []) :
    (s.assign pairs).rows = [assigned pairs] := by
  obtain ⟨p, pairs, rfl⟩ := List.exists_cons_of_ne_nil some_pair
  rfl

theorem table?_assign (pairs : List (Column × Operand)) :
    (s.assign pairs).table? = s.table?.or (pairs.head?.map (·.1.table)) := rfl

end Insert

/-! ### What calls do -/

namespace InsertStep

theorem columns_after (step : InsertStep) (s : Insert Node) :
    (step.after s).columns = s.columns ++ step.columns := by
  cases step with
  | into t => exact (List.append_nil _).symm
  | addColumns columns => rfl
  | addRow values => exact (List.append_nil _).symm
  | addRows rows => exact (s.columns_addRows rows).trans (List.append_nil _).symm
  | assign pairs => exact s.columns_assign pairs
  | fromSelect query => exact (List.append_nil _).symm

/-- **The columns are those that the calls name, in order**, after those there were. -/
theorem columns_run (steps : List InsertStep) (s : Insert Node) :
    (run steps s).columns = s.columns ++ steps.flatMap columns := by
  induction steps generalizing s with
  | nil => exact (List.append_nil _).symm
  | cons step steps ih =>
      calc (run steps (step.after s)).columns
          = (step.after s).columns ++ steps.flatMap columns := ih (step.after s)
        _ = s.columns ++ step.columns ++ steps.flatMap columns := by rw [columns_after]
        _ = s.columns ++ (step :: steps).flatMap columns := by
            rw [List.append_assoc, List.flatMap_cons]

/-- Rows of values come one after the other, each set against the columns. -/
theorem rows_run_addRow (rows : List (List Operand)) (s : Insert Node) :
    (run (rows.map addRow) s).rows = s.rows ++ rows.map (Insert.row s.columns) := by
  induction rows generalizing s with
  | nil => exact (List.append_nil _).symm
  | cons values rows ih =>
      calc (run (rows.map addRow) (s.addRow values)).rows
          = (s.addRow values).rows ++ rows.map (Insert.row (s.addRow values).columns) :=
            ih (s.addRow values)
        _ = s.rows ++ [Insert.row s.columns values] ++ rows.map (Insert.row s.columns) := by
            rw [Insert.rows_addRow, Insert.columns_addRow]
        _ = s.rows ++ (values :: rows).map (Insert.row s.columns) := by
            rw [List.append_assoc, List.map_cons, List.singleton_append]

/-- Of rows of pairs only the last one stays. -/
theorem rows_run_assign {calls : List (List (Column × Operand))}
    (some_pair : ∀ pairs ∈ calls, pairs ≠ []) (some_call : calls ≠ []) (s : Insert Node) :
    (run (calls.map assign) s).rows = [Insert.assigned (calls.getLast some_call)] := by
  -- The last call alone decides, whatever the statement it is made on.
  have last : calls.dropLast ++ [calls.getLast some_call] = calls :=
    List.dropLast_concat_getLast some_call
  have split : calls.map assign =
      calls.dropLast.map assign ++ [assign (calls.getLast some_call)] := by
    rw [← List.map_singleton, ← List.map_append, last]
  rw [split, run_append]
  exact Insert.rows_assign _ (some_pair _ (List.getLast_mem some_call))

/-- A target stays. -/
theorem table?_run_assign (calls : List (List (Column × Operand))) {s : Insert Node} {t : Table}
    (ht : s.table? = some t) : (run (calls.map assign) s).table? = some t := by
  induction calls generalizing s with
  | nil => exact ht
  | cons pairs calls ih =>
      have kept : (s.assign pairs).table? = some t := by
        rw [Insert.table?_assign, ht, Option.some_or]
      exact ih kept

end InsertStep

namespace Insert

open InsertStep (run)

/-- **Rows of values after one row of pairs.**  There is one row for each call, in the order of the
calls, and if the rows of values are as wide as the pairs are many, every row is as wide as the list
of columns. -/
theorem rows_of_pairs_then_values {pairs : List (Column × Operand)} (some_pair : pairs ≠ [])
    (rows : List (List Operand)) :
    let s := run (.assign pairs :: rows.map .addRow) {}
    s.columns = pairs.map Prod.fst ∧
    s.rows = assigned pairs :: rows.map (row (pairs.map Prod.fst)) ∧
    ((∀ values ∈ rows, values.length = pairs.length) →
      ∀ values ∈ s.rows, values.length = s.columns.length) := by
  intro s
  have columns : s.columns = pairs.map Prod.fst := by
    have named : (rows.map .addRow).flatMap InsertStep.columns = [] := by
      rw [List.flatMap_map]
      exact List.flatMap_eq_nil_iff.mpr fun _ _ => rfl
    rw [InsertStep.columns_run, List.flatMap_cons, named, List.append_nil]
    rfl
  have rows_eq : s.rows = assigned pairs :: rows.map (row (pairs.map Prod.fst)) := by
    have h := InsertStep.rows_run_addRow rows (assign pairs {})
    rwa [rows_assign _ some_pair, columns_assign] at h
  refine ⟨columns, rows_eq, ?_⟩
  intro wide values hvalues
  rw [columns, List.length_map]
  rw [rows_eq, List.mem_cons, List.mem_map] at hvalues
  obtain rfl | ⟨operands, hoperands, rfl⟩ := hvalues
  · exact length_assigned pairs
  · exact (length_row _ operands).trans (wide operands hoperands)

section
variable {columns : List Column} (some_column : columns ≠ [])
  {calls : List (List (Column × Operand))} (same : ∀ pairs ∈ calls, pairs.map Prod.fst = columns)
include same

/-- The list of columns is repeated for each call. -/
theorem columns_ofPairs :
    (ofPairs calls).columns = (List.replicate calls.length columns).flatten := by
  have names : calls.map (List.map Prod.fst) = List.replicate calls.length columns := by
    refine List.eq_replicate_iff.mpr ⟨List.length_map _, ?_⟩
    intro named hnamed
    obtain ⟨pairs, hpairs, rfl⟩ := List.mem_map.mp hnamed
    exact same pairs hpairs
  calc (ofPairs calls).columns
      = (calls.map .assign).flatMap InsertStep.columns :=
        (InsertStep.columns_run _ _).trans (List.nil_append _)
    _ = (calls.map (List.map Prod.fst)).flatten := by rw [List.flatMap_map, List.flatMap_def]; rfl
    _ = (List.replicate calls.length columns).flatten := by rw [names]

include some_column

theorem rows_ofPairs :
    (ofPairs calls).rows = (calls.getLast?.map assigned).toList := by
  by_cases some_call : calls = []
  · subst some_call
    rfl
  · have some_pair : ∀ pairs ∈ calls, pairs ≠ [] := by
      rintro pairs hpairs rfl
      exact some_column (same [] hpairs).symm
    rw [ofPairs, InsertStep.rows_run_assign some_pair some_call,
      List.getLast?_eq_some_getLast some_call]
    rfl

/-- The target is the table of the first column. -/
theorem table?_ofPairs (some_call : calls ≠ []) :
    (ofPairs calls).table? = columns.head?.map (·.table) := by
  obtain ⟨pairs, later, rfl⟩ := List.exists_cons_of_ne_nil some_call
  obtain ⟨c, columns, rfl⟩ := List.exists_cons_of_ne_nil some_column
  have named := same pairs List.mem_cons_self
  obtain ⟨p, pairs, rfl⟩ := List.exists_cons_of_ne_nil (l := pairs) (by rintro rfl; cases named)
  obtain ⟨rfl, -⟩ := List.cons.inj named
  exact InsertStep.table?_run_assign later rfl

/-- There is one row at most. -/
theorem rows_eq_each_iff :
    (ofPairs calls).rows = calls.map assigned ↔ calls.length ≤ 1 := by
  rw [rows_ofPairs some_column same]
  constructor
  · intro each
    have counted : ((calls.getLast?.map assigned).toList).length = calls.length := by
      rw [each, List.length_map]
    have atMostOne : ((calls.getLast?.map assigned).toList).length ≤ 1 := by
      cases calls.getLast?.map assigned with
      | none => exact Nat.zero_le 1
      | some row => exact Nat.le_refl 1
    exact counted ▸ atMostOne
  · intro single
    obtain _ | ⟨pairs, _ | ⟨later, calls⟩⟩ := calls
    · rfl
    · rfl
    · rw [List.length_cons, List.length_cons] at single
      omega

/-- A row has a value for each column of one call, the statement has the columns of all calls. -/
theorem rows_wide_iff :
    (∀ values ∈ (ofPairs calls).rows,
      values.length = (ofPairs calls).columns.length) ↔ calls.length ≤ 1 := by
  have width : (ofPairs calls).columns.length = calls.length * columns.length := by
    rw [columns_ofPairs same, List.length_flatten, List.map_replicate, List.sum_replicate_nat]
  have row_width : ∀ pairs ∈ calls, (assigned pairs).length = columns.length := by
    intro pairs hpairs
    rw [length_assigned, ← same pairs hpairs, List.length_map]
  rw [width, rows_ofPairs some_column same]
  constructor
  · intro wide
    by_cases some_call : calls = []
    · rw [some_call]
      exact Nat.zero_le 1
    · have last := wide (assigned (calls.getLast some_call)) (by
        rw [List.getLast?_eq_some_getLast some_call]
        exact List.mem_singleton_self _)
      rw [row_width _ (calls.getLast_mem some_call)] at last
      have positive : 0 < columns.length := List.length_pos_of_ne_nil some_column
      exact Nat.le_of_mul_le_mul_right (by omega) positive
  · intro single values hvalues
    rw [Option.mem_toList, Option.map_eq_some_iff] at hvalues
    obtain ⟨pairs, hlast, rfl⟩ := hvalues
    have hpairs : pairs ∈ calls := List.mem_of_getLast? hlast
    have one : calls.length = 1 := Nat.le_antisymm single (List.length_pos_of_mem hpairs)
    rw [row_width pairs hpairs, one, Nat.one_mul]

end

/-- **Rows of pairs for the same columns.**  The statement has the row of the last call only,
against the columns of every call.  So it has a row for each call, and rows as wide as its columns,
exactly if there are not two calls. -/
theorem ofPairs_of_same {columns : List Column} (some_column : columns ≠ [])
    {calls : List (List (Column × Operand))}
    (same : ∀ pairs ∈ calls, pairs.map Prod.fst = columns) :
    (ofPairs calls).columns = (List.replicate calls.length columns).flatten ∧
    (ofPairs calls).rows = (calls.getLast?.map assigned).toList ∧
    (calls ≠ [] → (ofPairs calls).table? = columns.head?.map (·.table)) ∧
    ((ofPairs calls).rows = calls.map assigned ↔ calls.length ≤ 1) ∧
    ((∀ values ∈ (ofPairs calls).rows, values.length = (ofPairs calls).columns.length) ↔
      calls.length ≤ 1) :=
  ⟨columns_ofPairs same, rows_ofPairs some_column same, table?_ofPairs some_column same,
    rows_eq_each_iff some_column same, rows_wide_iff some_column same⟩

/-- The second of two rows for one column, against that column twice. -/
theorem ofPairs_of_two :
    ∃ calls : List (List (Column × Operand)),
      calls = [[(⟨{ name := "t" }, "a"⟩, .value (.integer 1))],
        [(⟨{ name := "t" }, "a"⟩, .value (.integer 2))]] ∧
      (ofPairs calls).columns = [⟨{ name := "t" }, "a"⟩, ⟨{ name := "t" }, "a"⟩] ∧
      (ofPairs calls).rows = [[.of (.casted (.integer 2) ⟨{ name := "t" }, "a"⟩)]] := by
  have same : ∀ pairs ∈ [[((⟨{ name := "t" }, "a"⟩ : Column), Operand.value (.integer 1))],
      [(⟨{ name := "t" }, "a"⟩, .value (.integer 2))]],
      pairs.map Prod.fst = [⟨{ name := "t" }, "a"⟩] := by
    intro pairs hpairs
    simp only [List.mem_cons, List.not_mem_nil, or_false] at hpairs
    obtain rfl | rfl := hpairs <;> rfl
  obtain ⟨columns, rows, -⟩ := ofPairs_of_same (List.cons_ne_nil _ []) same
  exact ⟨_, rfl, columns, rows⟩

/-- Two calls with a pair for one column leave neither a row for each call nor a row as wide as the
list of columns. -/
theorem ofPairs_loses_row :
    ∃ calls : List (List (Column × Operand)),
      calls = [[(⟨{ name := "t" }, "a"⟩, .value (.integer 1))],
        [(⟨{ name := "t" }, "a"⟩, .value (.integer 2))]] ∧
      (∀ pairs ∈ calls, pairs ≠ [] ∧ pairs.map Prod.fst = [⟨{ name := "t" }, "a"⟩]) ∧
      (ofPairs calls).rows ≠ calls.map assigned ∧
      ¬ ∀ values ∈ (ofPairs calls).rows, values.length = (ofPairs calls).columns.length := by
  refine ⟨_, rfl, ?_, ?_, ?_⟩
  · intro pairs hpairs
    simp only [List.mem_cons, List.not_mem_nil, or_false] at hpairs
    obtain rfl | rfl := hpairs <;> exact ⟨List.cons_ne_nil _ _, rfl⟩
  · intro each
    have counted : 1 = 2 := congrArg List.length each
    omega
  · intro wide
    have counted : 1 = 2 := wide _ List.mem_cons_self
    omega

end Insert

end SqlTree
