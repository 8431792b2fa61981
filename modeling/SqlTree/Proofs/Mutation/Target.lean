import SqlTree.Proofs.Lexing.Quoted
import SqlTree.Proofs.Mutation.Restriction
import SqlTree.Proofs.Reading.Around

/-!
# SqlTree — Proofs — the target of a DELETE with joins

MySQL names the rows to delete before FROM, where a DELETE reads from more than one relation.  A
table goes there by the one name that FROM declares it under.  A table that was renamed afterwards
is declared under its new name too, but stands before FROM with all its names.

* `Node.draft_eq_of_names`: a table is written as all the names that it is declared with.
* `Delete.names_target`: what is written before FROM and behind it.
-/

namespace SqlTree
open Draft Dialect

/-! ### Names of tables -/

/-- The name of a table, and then the name that it goes by instead. -/
def Table.names (t : Table) : List String := t.name :: t.alias?.toList

namespace Node

/-- The names that a table is declared with, however often it is renamed: it goes by the last. -/
def names? : Node → Option (List String)
  | of (.table t) => some t.names
  | of (.tableAlias relation name) => relation.names?.map (· ++ [name])
  | of _ => none

/-- A table under no other names than its own. -/
def isTable : Node → Bool
  | of (.table _) => true
  | of _ => false

/-- What has names is a table, or was renamed last. -/
theorem cases_of_names {n : Node} {names : List String} (h : n.names? = some names) :
    (∃ t, n = of (.table t) ∧ names = t.names) ∨
      ∃ relation before name, n = of (.tableAlias relation name) ∧
        relation.names? = some before ∧ names = before ++ [name] := by
  obtain ⟨form⟩ := n
  cases form with
  | table t =>
      cases h
      exact .inl ⟨t, rfl, rfl⟩
  | tableAlias relation name =>
      rw [names?] at h
      obtain ⟨before, declared, rfl⟩ := Option.map_eq_some_iff.mp h
      exact .inr ⟨relation, before, name, rfl, declared, rfl⟩
  | _ => simp [names?] at h

section
variable {n : Node} {names : List String} (h : n.names? = some names)
include h

theorem ne_nil_of_names : names ≠ [] := by
  rcases cases_of_names h with ⟨t, -, rfl⟩ | ⟨_, before, name, -, -, rfl⟩
  · exact List.cons_ne_nil _ _
  · exact List.append_ne_nil_of_right_ne_nil _ (List.cons_ne_nil _ _)

/-- What has names is never put in parentheses. -/
theorem strength_of_names : n.strength = Strength.atom := by
  rcases cases_of_names h with ⟨t, rfl, -⟩ | ⟨_, _, _, rfl, -, -⟩
  · rfl
  · rfl

/-- **A table is written as its names**, from its own to the one that it goes by. -/
theorem draft_eq_of_names (d : Dialect) : n.draft d .item = sepBy " " (names.map ident) := by
  induction n using Node.induction generalizing names with
  | step form ih =>
      rcases cases_of_names h with ⟨t, same, rfl⟩ | ⟨relation, before, name, same, declared, rfl⟩
      · cases same
        obtain ⟨own, _ | other⟩ := t
        · rfl
        · rfl
      · cases same
        have operand : (relation.part d).operand Strength.atom = relation.draft d .item :=
          if_neg (Nat.not_lt.mpr (strength_of_names declared).ge)
        have written : (of (.tableAlias relation name)).draft d .item =
            (relation.part d).operand Strength.atom ++ fixed " " ++ ident name := rfl
        have declares : before.map ident ≠ [] := fun h =>
          ne_nil_of_names declared (List.map_eq_nil_iff.mp h)
        rw [written, operand, ih relation (List.mem_singleton_self _) declared, List.map_append]
        exact (sepBy_append " " declares (List.cons_ne_nil (ident name) [])).symm

end

/-- The qualifier of a table is the last of its names. -/
theorem qualifier_of_names {t : Table} {before : List String} {name : String}
    (h : t.names = before ++ [name]) : t.qualifier = name := by
  obtain ⟨own, alias?⟩ := t
  have last := congrArg List.getLast? h
  cases alias? with
  | none => simpa [Table.names, Table.qualifier] using last
  | some other => simpa [Table.names, Table.qualifier] using last

/-- A renamed table has a name before the one that it goes by. -/
theorem before_ne_nil_of_not_isTable {n : Node} {before : List String} {name : String}
    (h : n.names? = some (before ++ [name])) (renamed : ¬n.isTable = true) : before ≠ [] := by
  rcases cases_of_names h with ⟨t, rfl, -⟩ | ⟨relation, names, other, -, declared, same⟩
  · exact absurd rfl renamed
  · rw [(List.append_inj' same rfl).1]
    exact ne_nil_of_names declared

end Node

namespace Dialect

variable (d : Dialect)

/-- Names as a table is declared with them. -/
def declaration (names : List String) : String := " ".intercalate (names.map d.quoteIdentifier)

/-- A declaration with more than one name is not one name. -/
theorem declaration_ne_quoteIdentifier {before : List String} (more : before ≠ [])
    (last name : String) : d.declaration (before ++ [last]) ≠ d.quoteIdentifier name := by
  obtain ⟨first, before, rfl⟩ := List.exists_cons_of_ne_nil more
  intro same
  obtain ⟨rest, declared⟩ : ∃ rest, d.declaration (first :: before ++ [last]) =
      d.quoteIdentifier first ++ " " ++ rest := by
    cases before <;> exact ⟨_, String.intercalate_cons_cons⟩
  have blank : (" " ++ rest).toList.head? ≠ some d.identifierQuote := by
    rw [String.toList_append]
    cases d <;> simp [identifierQuote]
  -- the first name is read, and the blank is left
  have reads := d.scanName_quoteIdentifier first blank
  have whole := d.scanName_quoteIdentifier name (r := []) nofun
  rw [← String.toList_append, ← String.append_assoc, ← declared, same] at reads
  rw [List.append_nil, reads] at whole
  have nothing := congrArg Prod.snd (Option.some.inj whole)
  simp at nothing

end Dialect

theorem isSettled_declaration (names : List String) : (sepBy " " (names.map ident)).IsSettled :=
  .sepBy " " <| List.forall_mem_map.mpr fun name _ => isSettled_ident name

theorem wording_declaration (d : Dialect) (names : List String) :
    (sepBy " " (names.map ident)).wording d = d.declaration names := by
  rw [wording_sepBy " " (List.forall_mem_map.mpr fun name _ => isSettled_ident name),
    List.map_map, Dialect.declaration]
  exact congrArg _ (List.map_congr_left fun name _ => wording_ident name)

/-! ### The statement -/

/-- Rows with joins that are written in place have no order and no limit. -/
theorem Rows.bounded_of_joins {r : Rows Node} (native : r.isNative .mysql = true)
    (joins : r.source.joins ≠ []) : r.bounded .mysql = nothing := by
  obtain ⟨-, orders, limit⟩ :
      r.offset?.isNone = true ∧ r.orders = [] ∧ r.limit? = none := by
    simpa [Rows.isNative, joins] using native
  rw [bounded, ordered, orders, limit]
  rfl

namespace Delete

/-- What follows the declaration of the target: the joins and the filters. -/
def rest (d : Dialect) (s : Delete Node) : Draft :=
  sepBy " " (s.rows.source.joins.map fun j => (Node.of (.join j)).draft d .item) ++
    s.rows.filtered d

variable {s : Delete Node} {target : Node}

/-- What is written in place, for a target with names. -/
theorem draft_of_joins {names : List String}
    (native : s.rows.isNative .mysql = true) (joins : s.rows.source.joins ≠ [])
    (relation : s.rows.source.relation? = some target) (declared : target.names? = some names) :
    (Node.of (.delete s)).draft .mysql .statement =
      fixed "DELETE " ++ deleteTarget (target.part .mysql) ++ fixed " " ++ fixed "FROM " ++
        sepBy " " (names.map ident) ++ fixed " " ++ s.rest .mysql := by
  let m := Mutation.delete s
  have spelled : m.rows.isSpelled .mysql = true := (s.rows.isNative_eq .mysql).symm.trans native
  have written : (Node.of m.form).draft .mysql .statement =
      m.openingInPlace .mysql target ++ s.rows.filtered .mysql ++ s.rows.bounded .mysql := by
    rw [m.written_eq, show m.rows.source.relation? = some target from relation]
    exact (if_neg Bool.false_ne_true).trans (if_pos spelled)
  have opening : m.openingInPlace .mysql target =
      fixed "DELETE " ++ (deleteTarget (target.part .mysql) ++ fixed " ") ++ fixed "FROM " ++
        s.rows.joined .mysql target := by
    show fixed "DELETE " ++ (if s.rows.source.joins.isEmpty = true then _ else _) ++ _ ++ _ = _
    rw [if_neg (by simpa using joins)]
    rfl
  have joined : s.rows.joined .mysql target =
      sepBy " " (names.map ident) ++ fixed " " ++
        sepBy " " (s.rows.source.joins.map fun j => (Node.of (.join j)).draft .mysql .item) := by
    obtain ⟨join, joins', all⟩ := List.exists_cons_of_ne_nil joins
    simp only [Rows.joined, Node.draft_eq_of_names declared .mysql, all, List.map_cons, sepBy_cons,
      inOrder_cons, List.map_map, append_assoc]
    rfl
  have draft : (Node.of (.delete s)).draft .mysql .statement = _ := written
  rw [draft, opening, joined, Rows.bounded_of_joins native joins, append_nothing, rest]
  simp only [append_assoc]

/-- Before FROM stands a table by the name that it goes by, and a table that was renamed with all
its names. -/
theorem deleteTarget_of_names {before : List String} {name : String}
    (declared : target.names? = some (before ++ [name])) :
    (deleteTarget (target.part .mysql)).IsSettled ∧
      (deleteTarget (target.part .mysql)).wording .mysql =
        if target.isTable then mysql.quoteIdentifier name
        else mysql.declaration (before ++ [name]) := by
  rcases Node.cases_of_names declared with ⟨t, rfl, names⟩ | ⟨relation, _, other, rfl, -, -⟩
  · have item : deleteTarget (Node.part .mysql (.of (.table t))) = ident t.qualifier := rfl
    rw [item, wording_ident, Node.qualifier_of_names names.symm]
    exact ⟨isSettled_ident name, rfl⟩
  · have item : deleteTarget (Node.part .mysql (.of (.tableAlias relation other))) =
        sepBy " " ((before ++ [name]).map ident) := Node.draft_eq_of_names declared .mysql
    rw [item, wording_declaration]
    exact ⟨isSettled_declaration _, rfl⟩

/-- **What a DELETE with joins names.**  Where MySQL writes the statement in place, a target with
names is declared behind FROM with all of them, before the joins and filters.  Before FROM stands
one quoted name exactly if the target is a table that was not renamed, and then it is the name that
the table is declared under: its alias, if it has one.  A table that was renamed stands there with
its whole declaration.  So it is inline and compiled. -/
theorem names_target {before : List String} {name : String}
    (native : s.rows.isNative .mysql = true) (joins : s.rows.source.joins ≠ [])
    (relation : s.rows.source.relation? = some target)
    (declared : target.names? = some (before ++ [name])) :
    let declaration := mysql.declaration (before ++ [name])
    let between := if target.isTable then mysql.quoteIdentifier name else declaration
    let text (sql : String) : String :=
      "DELETE " ++ between ++ " " ++ "FROM " ++ declaration ++ " " ++ sql
    (Node.of (.delete s)).toSql .mysql = ((s.rest .mysql).toSql .mysql).map text ∧
      (Node.of (.delete s)).compile .mysql =
        ((s.rest .mysql).compile .mysql).map (fun q => { q with sql := text q.sql }) ∧
      ((∃ only, between = mysql.quoteIdentifier only) ↔ target.isTable = true) := by
  intro declaration between text
  obtain ⟨named, target_text⟩ := deleteTarget_of_names declared
  let heading := fixed "DELETE " ++ deleteTarget (target.part .mysql) ++ fixed " " ++
    fixed "FROM " ++ sepBy " " ((before ++ [name]).map ident) ++ fixed " "
  have verb := (isSettled_fixed "DELETE ").append named
  have from_word := (verb.append (isSettled_fixed " ")).append (isSettled_fixed "FROM ")
  have declares := from_word.append (isSettled_declaration (before ++ [name]))
  have settled : heading.IsSettled := declares.append (isSettled_fixed " ")
  have wording : heading.wording .mysql =
      "DELETE " ++ between ++ " " ++ "FROM " ++ declaration ++ " " := by
    rw [wording_append declares, wording_append from_word,
      wording_append (verb.append (isSettled_fixed " ")), wording_append verb,
      wording_append (isSettled_fixed "DELETE "), target_text, wording_declaration]
    simp only [wording_fixed]
    rfl
  have draft : (Node.of (.delete s)).draft .mysql .statement = heading ++ s.rest .mysql :=
    draft_of_joins native joins relation declared
  refine ⟨?_, ?_, ?_⟩
  · rw [Node.toSql, draft, toSql_behind settled, wording]
  · rw [Node.compile, draft, compile_behind settled, wording]
  · constructor
    · rintro ⟨only, same⟩
      by_contra renamed
      have more : before ≠ [] :=
        Node.before_ne_nil_of_not_isTable declared renamed
      exact mysql.declaration_ne_quoteIdentifier more name only ((if_neg renamed).symm.trans same)
    · intro table
      exact ⟨name, if_pos table⟩

/-- A table with a name of its own, joined with another. -/
theorem names_target_of_aliased :
    let target := Node.of (.table ⟨"users", some "u"⟩)
    let join : Join Node := { kind := .cross, relation := .of (.table ⟨"bans", none⟩) }
    let s : Delete Node := ⟨{ source := { relation? := some target, joins := [join] } }⟩
    s.rows.isNative .mysql = true ∧ s.rows.source.joins ≠ [] ∧
      target.names? = some (["users"] ++ ["u"]) ∧
      (Node.of (.delete s)).toSql .mysql =
        .ok "DELETE \x60u\x60 FROM \x60users\x60 \x60u\x60 CROSS JOIN \x60bans\x60" := by
  intro target join s
  have joins : s.rows.source.joins ≠ [] := List.cons_ne_nil _ _
  have declared : target.names? = some (["users"] ++ ["u"]) := rfl
  obtain ⟨inline, -, -⟩ := names_target (s := s) rfl joins rfl declared
  have rest : (s.rest .mysql).toSql .mysql = .ok "CROSS JOIN \x60bans\x60" := rfl
  refine ⟨rfl, joins, declared, ?_⟩
  rw [inline, rest]
  exact congrArg Except.ok (by decide)

/-- A table that was renamed stands before FROM with both its names, and not with the last alone. -/
theorem names_target_twice :
    let target := Node.of (.tableAlias (.of (.table ⟨"t", none⟩)) "u")
    let join : Join Node := { kind := .inner, relation := .of (.table ⟨"b", none⟩) }
    let s : Delete Node := ⟨{ source := { relation? := some target, joins := [join] } }⟩
    (Node.of (.delete s)).toSql .mysql =
        .ok "DELETE \x60t\x60 \x60u\x60 FROM \x60t\x60 \x60u\x60 INNER JOIN \x60b\x60" ∧
      ¬(Node.of (.delete s)).toSql .mysql =
        .ok ("DELETE " ++ mysql.quoteIdentifier "u" ++
          " FROM \x60t\x60 \x60u\x60 INNER JOIN \x60b\x60") := by
  intro target join s
  have written : (Node.of (.delete s)).toSql .mysql =
      .ok "DELETE \x60t\x60 \x60u\x60 FROM \x60t\x60 \x60u\x60 INNER JOIN \x60b\x60" := rfl
  refine ⟨written, fun named => ?_⟩
  exact absurd (Except.ok.inj (written.symm.trans named)) (by decide)

end Delete

end SqlTree
