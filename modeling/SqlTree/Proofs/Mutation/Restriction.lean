import SqlTree.Proofs.Writing.Fault

/-!
# SqlTree — Proofs — UPDATE and DELETE keep their restrictions

Both statements are written in one of three ways: with their filters, in place with all their
clauses, or restricted to the keys that a select with all their clauses finds.  `Mutation` is either
statement.

* `Mutation.draft_eq`: which of the three it is, what is written then, and when the statement is
  refused instead.
-/

namespace SqlTree
open Draft

/-! ### Rows and the select of their keys -/

namespace Rows

variable {α : Type}

/-- The rows are a filter of one relation. -/
def isPlain (r : Rows α) : Bool :=
  r.source.joins.isEmpty && r.orders.isEmpty && r.limit?.isNone && r.offset?.isNone

/-- MySQL has a spelling for the rows as they are. -/
def isSpelled (d : Dialect) (r : Rows α) : Bool :=
  d = .mysql && r.offset?.isNone && (r.source.joins.isEmpty || r.orders.isEmpty && r.limit?.isNone)

theorem needsKey_eq (r : Rows α) : r.needsKey = !r.isPlain := by
  cases hl : r.limit? <;> cases ho : r.offset? <;> simp [needsKey, isPlain, hl, ho]

theorem isNative_eq (d : Dialect) (r : Rows α) : r.isNative d = r.isSpelled d := by
  cases d <;> cases hl : r.limit? <;> simp [isNative, isSpelled, hl]

/-- The select of the key from the source, with all clauses of the rows. -/
def keySelect (r : Rows Node) (key : Node) : Node :=
  .of (.select (.single { projections := [key], source := r.source, filters := r.filters }
    { orders := r.orders, limit? := r.limit?, offset? := r.offset? }))

/-- The key as a column of a derived table. -/
def bareKey : Node → Node
  | .of (.column c) => .of (.unqualified c)
  | key => key

/-- The keys that a select finds, read from it as a derived table. -/
def derivedKeys (keys : Node) (key : Node) : Node :=
  .of (.select (.single
    { projections := [bareKey key],
      source := { relation? := some (.of (.tableAlias keys "__arel_temp")) } } {}))

/-- The select that finds the keys: MySQL must not read the table that it changes. -/
def keysFound (d : Dialect) (r : Rows Node) (key : Node) : Node :=
  if d = .mysql then derivedKeys (r.keySelect key) key else r.keySelect key

/-! ### What is written for rows -/

section
variable (d : Dialect) (r : Rows Node)

/-- The target and all joins. -/
def joined (target : Node) : Draft :=
  target.draft d .item ++
    inOrder (r.source.joins.map fun j => fixed " " ++ (Node.of (.join j)).draft d .item)

/-- The conjunction of all filters. -/
def filtered : Draft :=
  match r.filters with
  | [] => nothing
  | n :: ns =>
    fixed " WHERE " ++ (n.part d).operand Strength.conjunction ++
      inOrder (ns.map fun n => fixed " AND " ++ (n.part d).operand Strength.conjunction)

/-- The sort keys. -/
def ordered : Draft :=
  match r.orders with
  | [] => nothing
  | n :: ns =>
    fixed " ORDER BY " ++ n.draft d .item ++ inOrder (ns.map fun n => fixed ", " ++ n.draft d .item)

/-- The order and the limit. -/
def bounded : Draft :=
  r.ordered d ++
    match r.limit? with
    | none => nothing
    | some n => fixed " LIMIT " ++ n.draft d .item

/-- The condition that the key is among those that the select finds. -/
def restricted (key : Node) : Draft :=
  fixed " WHERE " ++ ((key.part d).operand Strength.compared ++ fixed " IN " ++
    ((r.keysFound d key).draft d .statement).parens)

end

end Rows

/-- Equality is kept. -/
theorem Draft.congruence_eq : Congruence Eq :=
  .of_lexemes rfl (fun ha hb => ha ▸ hb ▸ rfl) fun _ _ => rfl

section
variable (d : Dialect) {key : Node}

theorem wrappedKey_alike : Part.Alike Eq (wrappedKey (key.part d)) ((Rows.bareKey key).part d) := by
  obtain ⟨form⟩ := key
  cases form <;> exact ⟨rfl, rfl, fun place => by cases place <;> rfl, fun _ _ => rfl⟩

/-- A select under a name is written in its parentheses, at every place. -/
theorem draft_tableAlias (s : Select Node) (name : String) (place : Place) :
    (Node.of (.tableAlias (.of (.select s)) name)).draft d place =
      ((s.map (Node.part d)).draft d).parens ++ fixed " " ++ ident name := by
  rw [Node.draft_of]
  have relation : ((Node.of (.select s)).part d).operand Strength.atom =
      ((s.map (Node.part d)).draft d).parens := Node.draft_select_item d s
  cases place <;> exact congrArg (· ++ fixed " " ++ ident name) relation

/-- Keys that are written as `s` is are found through the derived table of `s`. -/
theorem wrappedKeys_draft {keys : Select Part} {s : Select Node}
    (h : keys.draft d = (s.map (Node.part d)).draft d) :
    (wrappedKeys d (key.part d) keys).draft d =
      (Rows.derivedKeys (.of (.select s)) key).draft d .statement := by
  let table : Part := (.of (.tableAlias (.of (.select (keys.map Part.node))) keyTable),
    fun _ => (keys.draft d).parens ++ fixed " " ++ ident keyTable)
  let derived : Part := (Node.of (.tableAlias (.of (.select s)) keyTable)).part d
  have relation : Part.Alike Eq table derived := by
    refine ⟨rfl, rfl, fun place => ?_, nofun⟩
    show _ = (Node.of (.tableAlias (.of (.select s)) keyTable)).draft d place
    rw [draft_tableAlias, ← h]
  -- the two selects are one select of pairs, seen from its two sides
  let pairs : Select (Part × Part) := .single
    { projections := [(wrappedKey (key.part d), (Rows.bareKey key).part d)],
      source := { relation? := some (table, derived) } } {}
  rw [Rows.derivedKeys, Node.draft_select_statement]
  refine pairs.draft_uniform Draft.congruence_eq d (u := Prod.fst) (v := Prod.snd)
    (fun x hx => ?_) (fun x hx => ?_) nofun nofun
  · obtain rfl : x = (wrappedKey (key.part d), (Rows.bareKey key).part d) :=
      List.mem_singleton.mp hx
    exact (wrappedKey_alike d).projection Draft.congruence_eq
  · obtain rfl : x = (table, derived) := by
      simpa [pairs, Select.elsewhere, Modifiers.before, Modifiers.after, Core.elsewhere,
        Source.parts] using hx
    exact relation.similar

/-- Writing the select of keys within the statement is writing that select. -/
theorem Rows.restriction_eq (r : Rows Node) (key : Node) :
    (r.map (Node.part d)).restriction d (key.part d) =
      (key.part d).operand Strength.compared ++ fixed " IN " ++
        ((r.keysFound d key).draft d .statement).parens := by
  have found : ((r.map (Node.part d)).keys (key.part d)).draft d =
      (r.keySelect key).draft d .statement :=
    (Node.draft_select_statement d (r.keys key)).symm
  refine congrArg ((key.part d).operand Strength.compared ++ fixed " IN " ++ Draft.parens ·) ?_
  cases d with
  -- the select stands in the derived table as it would stand by itself
  | mysql => exact wrappedKeys_draft .mysql (s := r.keys key) rfl
  | _ => exact found

theorem Rows.filtered_eq (r : Rows Node) :
    clause " WHERE " " AND " (Part.conjuncts (r.map (Node.part d)).filters) = r.filtered d := by
  simp only [Rows.map, Rows.filtered, Part.conjuncts]
  cases r.filters with
  | nil => rfl
  | cons n ns =>
      simp only [List.map_cons, clause, sepBy_cons, List.map_map, append_assoc]
      rfl

theorem Rows.ordered_eq (r : Rows Node) :
    ordersDraft (r.map (Node.part d)).orders = r.ordered d := by
  simp only [Rows.map, Rows.ordered, ordersDraft]
  cases r.orders with
  | nil => rfl
  | cons n ns =>
      simp only [List.map_cons, clause, sepBy_cons, List.map_map, append_assoc]
      rfl

theorem Rows.inPlace_eq (r : Rows Node) :
    (r.map (Node.part d)).inPlace d = r.filtered d ++ r.bounded d := by
  rw [Rows.inPlace, Rows.filtered_eq, Rows.ordered_eq, append_assoc, Rows.bounded]
  congr 2
  cases hl : r.limit? with
  | none => simp [Rows.map, hl, limitDraft, optional]
  | some n =>
      simp [Rows.map, hl, limitDraft, optional]
      rfl

theorem Rows.joined_eq {r : Rows Node} {target : Node} (h : r.source.relation? = some target) :
    (r.source.map (Node.part d)).draft d = r.joined d target := by
  simp only [Source.draft, Source.map, h, Option.map_some, Option.toList_some, List.map_cons,
    List.map_nil, List.singleton_append, sepBy_cons, List.map_map, Rows.joined]
  congr 2
  refine List.map_congr_left fun j _ => ?_
  rw [Node.draft_of]
  rfl

/-- Rows that are not written in place are filtered, or restricted to the keys found. -/
theorem Rows.restrict_eq (r : Rows Node) (gap : Gap) (opening : Draft) :
    (r.map (Node.part d)).restrict d gap opening =
      if r.isPlain then opening ++ r.filtered d
      else
        match r.key? with
        | none => fail (.incomplete gap)
        | some key => opening ++ r.restricted d key := by
  rw [Rows.restrict, Rows.needsKey_map, Rows.needsKey_eq, Rows.filtered_eq]
  cases r.isPlain with
  | true => rfl
  | false =>
      cases hk : r.key? with
      | none => simp [Rows.map, hk]
      | some key =>
          have keyed := Rows.restriction_eq d r key
          simp only [Rows.map, hk, Option.map_some] at keyed ⊢
          simp [keyed, Rows.restricted, append_assoc]

end

/-! ### The two statements -/

/-- A statement that changes or deletes rows. -/
inductive Mutation where
  | update (s : Update Node)
  | delete (s : Delete Node)

namespace Mutation

def form : Mutation → Form Node
  | update s => .update s
  | delete s => .delete s

def rows : Mutation → Rows Node
  | update s => s.rows
  | delete s => s.rows

def relationGap : Mutation → Gap
  | update _ => .updateRelation
  | delete _ => .deleteRelation

def keyGap : Mutation → Gap
  | update _ => .updateKey
  | delete _ => .deleteKey

/-- An UPDATE without assignments. -/
def assignsNothing : Mutation → Bool
  | update s => s.assignments.isEmpty
  | delete _ => false

section
variable (d : Dialect) (target : Node)

/-- The assignments of an UPDATE. -/
def assignments : Mutation → Draft
  | update s => fixed " SET " ++ sepBy ", " (s.assignments.map (·.draft d .item))
  | delete _ => nothing

/-- The statement up to its restriction, for the target alone. -/
def opening (m : Mutation) : Draft :=
  match m with
  | update _ => fixed "UPDATE " ++ target.draft d .item ++ m.assignments d
  | delete _ => fixed "DELETE FROM " ++ target.draft d .item

/-- The statement up to its restriction, with all joins; a DELETE with joins names the target. -/
def openingInPlace (m : Mutation) : Draft :=
  match m with
  | update _ => fixed "UPDATE " ++ m.rows.joined d target ++ m.assignments d
  | delete s =>
    fixed "DELETE " ++
      (if s.rows.source.joins.isEmpty then nothing
        else deleteTarget (target.part d) ++ fixed " ") ++
      fixed "FROM " ++ m.rows.joined d target

end

section
variable (d : Dialect) (m : Mutation)

theorem written_eq : (Node.of m.form).draft d .statement =
    match m.rows.source.relation? with
    | none => fail (.incomplete m.relationGap)
    | some target =>
      if m.assignsNothing then fail (.incomplete .updateAssignments)
      else if m.rows.isSpelled d then
        m.openingInPlace d target ++ m.rows.filtered d ++ m.rows.bounded d
      else if m.rows.isPlain then m.opening d target ++ m.rows.filtered d
      else
        match m.rows.key? with
        | none => fail (.incomplete m.keyGap)
        | some key => m.opening d target ++ m.rows.restricted d key := by
  rw [Node.draft_of, ← Rows.isNative_eq]
  cases hr : m.rows.source.relation? with
  | none =>
      cases m with
      | update s | delete s =>
          simp only [rows] at hr
          simp [form, Form.map, Form.draft_statement, Form.item, Update.map, Delete.map,
            Update.draft, Delete.draft, hr, relationGap]
  | some target =>
      have joined := Rows.joined_eq d hr
      have item : (target.part d).item = target.draft d .item := rfl
      cases m with
      | update s =>
          have assigned : Part.list (s.assignments.map (Node.part d)) =
              sepBy ", " (s.assignments.map (·.draft d .item)) := by
            simp only [Part.list, List.map_map]
            rfl
          simp only [rows] at hr joined
          simp only [form, Form.map, Form.draft_statement, Form.item, Update.map, Update.draft,
            Rows.source_map, Source.relation?_map, hr, Option.map_some, List.isEmpty_map,
            Rows.isNative_map, joined, Rows.inPlace_eq, Rows.restrict_eq, assigned, item, rows,
            opening, openingInPlace, assignments, assignsNothing, keyGap, append_assoc]
      | delete s =>
          simp only [rows] at hr joined
          simp only [form, Form.map, Form.draft_statement, Form.item, Delete.map, Delete.draft,
            Rows.source_map, Source.relation?_map, hr, Option.map_some, Rows.isNative_map, joined,
            Rows.inPlace_eq, Rows.restrict_eq, item, rows, opening, openingInPlace, assignsNothing,
            keyGap, append_assoc]
          cases hj : s.rows.source.joins <;> simp [Source.map, hj, onlyIf]

theorem refusals_eq_nil {target : Node} (joins : m.rows.source.refusals d = [])
    (relation : m.rows.source.relation? = some target) (assigns : m.assignsNothing = false)
    (key : m.rows.lacksKey d = false) : m.form.refusals d = [] := by
  cases m with
  | update s =>
      simp only [rows, assignsNothing] at joins relation assigns key
      simp [form, Form.refusals, Update.refusals, joins, relation, assigns, key]
  | delete s =>
      simp only [rows] at joins relation key
      simp [form, Form.refusals, Delete.refusals, joins, relation, key]

end

/-- **What an UPDATE or a DELETE is written as.**  If all its components can be written, the
statement is refused only where the relation, the assignments or a key that is needed are missing,
in this order; nothing is written then.  Otherwise it is written in place where MySQL spells it,
with its filters where they are all there is, and everywhere else with the one restriction to the
keys that a select with all its clauses finds. -/
theorem draft_eq (d : Dialect) (m : Mutation) (components : ∀ n ∈ m.form.parts, n.Renders d)
    (joins : ∀ j ∈ m.rows.source.joins, (Node.of (.join j)).Renders d) :
    let written := (Node.of m.form).draft d .statement
    match m.rows.source.relation? with
    | none => written = fail (.incomplete m.relationGap)
    | some target =>
      if m.assignsNothing then written = fail (.incomplete .updateAssignments)
      else if m.rows.isSpelled d then
        written.IsWhole ∧
          written = m.openingInPlace d target ++ m.rows.filtered d ++ m.rows.bounded d
      else if m.rows.isPlain then
        written.IsWhole ∧ written = m.opening d target ++ m.rows.filtered d
      else
        match m.rows.key? with
        | none => written = fail (.incomplete m.keyGap)
        | some key =>
          written.IsWhole ∧ written = m.opening d target ++ m.rows.restricted d key := by
  intro written
  have equation : written = _ := written_eq d m
  have whole {target : Node} (relation : m.rows.source.relation? = some target)
      (assigns : ¬m.assignsNothing) (key : m.rows.lacksKey d = false) : written.IsWhole := by
    refine Node.isWhole_of_parts components (m.refusals_eq_nil d ?_ relation ?_ key) .statement
    · exact List.flatMap_eq_nil_iff.mpr fun j hj => Node.refusals_of_join (joins j hj)
    · exact Bool.eq_false_iff.mpr assigns
  have lacksKey : m.rows.lacksKey d =
      (!m.rows.isPlain && !m.rows.isSpelled d && m.rows.key?.isNone) := by
    rw [Rows.lacksKey, Rows.needsKey_eq, Rows.isNative_eq]
  cases relation : m.rows.source.relation? with
  | none => simpa only [relation] using equation
  | some target =>
      simp only [relation] at equation ⊢
      -- in each case in which the statement is not refused there is a key or no need of one
      split_ifs at equation ⊢ with assigns spelled plain
      · exact equation
      · exact ⟨whole relation assigns (by simp [lacksKey, spelled]), equation⟩
      · exact ⟨whole relation assigns (by simp [lacksKey, plain]), equation⟩
      · cases key : m.rows.key? with
        | none => simpa only [key] using equation
        | some k =>
            simp only [key] at equation
            exact ⟨whole relation assigns (by simp [lacksKey, key]), equation⟩

/-- The oldest of the users over 18, joined with all bans, is deleted by its key: the join, the
filter, the order and the limit go into the select of keys. -/
theorem draft_eq_of_limited_delete :
    let users : Table := ⟨"users", none⟩
    let bans := Node.of (.table ⟨"bans", none⟩)
    let target := Node.of (.table users)
    let key := Node.of (.column ⟨users, "id"⟩)
    let age := Node.of (.column ⟨users, "age"⟩)
    let rows : Rows Node :=
      { source := { relation? := some target, joins := [⟨.cross, bans, none⟩] }
        filters := [.binary .greaterThan age (.of (.quoted (.integer 18)))]
        orders := [.of (.sortKey ⟨age, .desc, none⟩)]
        limit? := some (.of (.quoted (.integer 1)))
        key? := some key }
    let m := delete ⟨rows⟩
    (∀ n ∈ m.form.parts, n.Renders .generic) ∧
      (∀ j ∈ m.rows.source.joins, (Node.of (.join j)).Renders .generic) ∧
      (Node.of m.form).draft .generic .statement =
        m.opening .generic target ++ m.rows.restricted .generic key ∧
      (Node.of m.form).toSql .generic =
        .ok ("DELETE FROM \"users\" WHERE \"users\".\"id\" IN (SELECT \"users\".\"id\"" ++
          " FROM \"users\" CROSS JOIN \"bans\" WHERE \"users\".\"age\" > 18" ++
          " ORDER BY \"users\".\"age\" DESC LIMIT 1)") := by
  intro users bans target key age rows m
  have components : ∀ n ∈ m.form.parts, n.Renders .generic := by
    rintro n (_ | ⟨_, _ | ⟨_, _ | ⟨_, _ | ⟨_, _ | ⟨_, _ | ⟨_, ⟨⟩⟩⟩⟩⟩⟩⟩) <;> rfl
  have joins : ∀ j ∈ m.rows.source.joins, (Node.of (.join j)).Renders .generic := by
    rintro j (_ | ⟨_, ⟨⟩⟩)
    rfl
  have equation : _ ∧ _ := draft_eq .generic m components joins
  exact ⟨components, joins, equation.2, by decide +kernel⟩

end Mutation

end SqlTree
