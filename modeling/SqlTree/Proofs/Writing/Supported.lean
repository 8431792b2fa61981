import SqlTree.Proofs.Writing.Refusal

/-!
# SqlTree — Proofs — what a dialect can write

Two things stand in the way of a statement.  It may be incomplete (`Form.Lacks`), or a construct in
it may be one of the few that the dialect does not support (`Form.Uses`, `Dialect.unsupported`).

* `Form.blames_of_mem_refusals`: whatever a construct may be refused for is one of these, and the
  error says which.
-/

namespace SqlTree

variable {α : Type}

/-! ### What a construct is made of -/

/-- The blocks of a select, from left to right. -/
def Select.cores : Select α → List (Core α)
  | single core _ => [core]
  | compound _ left right _ => left.cores ++ right.cores

/-- The operands of all set operators of a select, and whether they are on the left. -/
def Select.operands : Select α → List (Bool × Select α)
  | single .. => []
  | compound _ left right _ =>
    (true, left) :: (false, right) :: (left.operands ++ right.operands)

/-- The select that a construct is, or that an INSERT has its rows from. -/
def Form.select? : Form α → Option (Select α)
  | select s => some s
  | insert ⟨_, _, some (.select s)⟩ => some s
  | _ => none

def Form.cores (form : Form α) : List (Core α) := form.select?.toList.flatMap Select.cores

def Form.operands (form : Form α) : List (Bool × Select α) :=
  form.select?.toList.flatMap Select.operands

/-- The joins of a construct: of its blocks, of the rows that it changes, or itself. -/
def Form.joins : Form α → List (Join α)
  | join j => [j]
  | update s => s.rows.source.joins
  | delete s => s.rows.source.joins
  | form => form.cores.flatMap (·.source.joins)

/-! ### What stands in the way -/

/-- An incomplete statement, and what it lacks. -/
inductive Form.Lacks (d : Dialect) : Form α → Gap → Prop where
  | insertRelation {s : Insert α} : s.table? = none → Lacks d (.insert s) .insertRelation
  | insertValues {s : Insert α} :
      s.columns ≠ [] → s.source? = none → Lacks d (.insert s) .insertValues
  | updateRelation {s : Update α} :
      s.rows.source.relation? = none → Lacks d (.update s) .updateRelation
  | updateAssignments {s : Update α} : s.assignments = [] → Lacks d (.update s) .updateAssignments
  | updateKey {s : Update α} : s.rows.needsKey = true → s.rows.isNative d = false →
      s.rows.key? = none → Lacks d (.update s) .updateKey
  | deleteRelation {s : Delete α} :
      s.rows.source.relation? = none → Lacks d (.delete s) .deleteRelation
  | deleteKey {s : Delete α} : s.rows.needsKey = true → s.rows.isNative d = false →
      s.rows.key? = none → Lacks d (.delete s) .deleteKey
  | selectRelation {form : Form α} {core : Core α} : core ∈ form.cores →
      core.source.joins ≠ [] → core.source.relation? = none → Lacks d form .selectRelation

/-- A construct that some dialect has no spelling for. -/
inductive Form.Uses : Form α → Feature → Prop where
  | regexp {left right : α} {caseSensitive negated : Bool} :
      Uses (.regexp left right caseSensitive negated) .regexp
  | extract {expr : α} {field : String} : Uses (.extract expr field) .extract
  | distinctOn {form : Form α} {core : Core α} {exprs : List α} : core ∈ form.cores →
      core.quantifier? = some (.distinctOn exprs) → Uses form .distinctOn
  | fullOuterJoin {form : Form α} {j : Join α} : j ∈ form.joins → j.kind = .fullOuter →
      Uses form .fullOuterJoin
  | modifiedOperand {form : Form α} {isLeft : Bool} {s : Select α} : (isLeft, s) ∈ form.operands →
      s.isModified = true → Uses form .modifiedOperand
  | nestedOperand {form : Form α} {s : Select α} : (false, s) ∈ form.operands →
      s.core? = none → Uses form .nestedOperand

/-- What the dialect has no spelling for. -/
def Dialect.unsupported : Dialect → List Feature
  | generic => [.regexp, .distinctOn]
  | postgresql => []
  | mysql => [.fullOuterJoin, .distinctOn]
  | sqlite => [.extract, .distinctOn, .modifiedOperand, .nestedOperand]

/-- The error says what the construct lacks, or what in it the dialect has no spelling for. -/
def Error.Blames (d : Dialect) (e : Error) (form : Form α) : Prop :=
  (∃ gap, e = .incomplete gap ∧ form.Lacks d gap) ∨
    ∃ feature ∈ d.unsupported, e = .unsupported feature d ∧ form.Uses feature

/-! ### Each refusal of a construct -/

section
variable {d : Dialect} {e : Error} {form : Form α}

theorem Error.blames_of_gap {condition : Bool} {gap : Gap}
    (h : e ∈ if condition then [Error.incomplete gap] else [])
    (lacks : condition = true → form.Lacks d gap) : e.Blames d form := by
  split_ifs at h with holds
  · exact .inl ⟨gap, List.mem_singleton.mp h, lacks holds⟩
  · cases h

theorem Error.blames_of_feature {feature : Feature} (h : e ∈ [Error.unsupported feature d])
    (unsupported : feature ∈ d.unsupported) (uses : form.Uses feature) : e.Blames d form :=
  .inr ⟨feature, unsupported, List.mem_singleton.mp h, uses⟩

theorem Join.blames {j : Join α} (within : j ∈ form.joins) (h : e ∈ j.refusals d) :
    e.Blames d form := by
  cases hk : j.kind with
  | raw => simp [refusals, hk] at h
  | fullOuter =>
      simp only [refusals, hk] at h
      cases d with
      | mysql => exact Error.blames_of_feature h List.mem_cons_self (.fullOuterJoin within hk)
      | _ => cases h
  | _ =>
      simp only [refusals, hk] at h
      cases d <;> cases h

theorem Source.blames {s : Source α} (within : ∀ j ∈ s.joins, j ∈ form.joins)
    (h : e ∈ s.refusals d) : e.Blames d form := by
  obtain ⟨j, hj, h⟩ := List.mem_flatMap.mp h
  exact j.blames (within j hj) h

theorem Core.blames {c : Core α} (within : c ∈ form.cores)
    (joins : ∀ j ∈ c.source.joins, j ∈ form.joins) (h : e ∈ c.refusals d) : e.Blames d form := by
  simp only [refusals, List.mem_append] at h
  obtain (h | h) | h := h
  · rcases hq : c.quantifier? with _ | _ | _ | exprs
    · simp [hq] at h
    · simp [hq, SetQuantifier.refusals] at h
    · simp [hq, SetQuantifier.refusals] at h
    · have uses := Form.Uses.distinctOn within hq
      simp only [hq, Option.map_some, Option.getD_some, SetQuantifier.refusals] at h
      cases d with
      | postgresql => cases h
      | generic | mysql | sqlite =>
          exact Error.blames_of_feature h (by decide) uses
  · refine Error.blames_of_gap h fun lacks => ?_
    simp only [Source.isEmpty, Bool.and_eq_true, Bool.not_eq_true', Bool.and_eq_false_iff,
      Option.isNone_iff_eq_none] at lacks
    refine .selectRelation within (fun none => ?_) lacks.2
    simp [none, lacks.2] at lacks
  · exact c.source.blames joins h

theorem Select.blames_of_operand {isLeft : Bool} {s : Select α}
    (within : (isLeft, s) ∈ form.operands) (h : e ∈ s.operandRefusals d isLeft) :
    e.Blames d form := by
  cases d with
  | sqlite =>
      simp only [operandRefusals] at h
      split_ifs at h with modified nested
      · exact Error.blames_of_feature h (by decide) (.modifiedOperand within modified)
      · simp only [Bool.and_eq_true, Option.isNone_iff_eq_none, Bool.not_eq_true'] at nested
        obtain ⟨compound, rfl⟩ := nested
        exact Error.blames_of_feature h (by decide) (.nestedOperand within compound)
      · cases h
  | _ => cases h

theorem Select.blames (joins : ∀ c ∈ form.cores, ∀ j ∈ c.source.joins, j ∈ form.joins) :
    ∀ {s : Select α}, (∀ c ∈ s.cores, c ∈ form.cores) → (∀ o ∈ s.operands, o ∈ form.operands) →
      e ∈ s.refusals d → e.Blames d form
  | .single core _, hc, _, h => by
      have within := hc core List.mem_cons_self
      exact core.blames within (joins core within) h
  | .compound _ left right _, hc, ho, h => by
      simp only [cores, List.mem_append, operands, List.mem_cons] at hc ho
      simp only [refusals, List.mem_append] at h
      obtain (h | h) | h | h := h
      · exact left.blames_of_operand (ho _ (.inl rfl)) h
      · exact Select.blames joins (fun c hl => hc c (.inl hl))
          (fun o hl => ho o (.inr (.inr (.inl hl)))) h
      · exact right.blames_of_operand (ho _ (.inr (.inl rfl))) h
      · exact Select.blames joins (fun c hr => hc c (.inr hr))
          (fun o hr => ho o (.inr (.inr (.inr hr)))) h

theorem Form.blames_of_select {s : Select α} (hs : form.select? = some s) (h : e ∈ s.refusals d) :
    e.Blames d form := by
  have joins : form.joins = form.cores.flatMap (·.source.joins) := by
    cases form with
    | join _ | update _ | delete _ => cases hs
    | _ => rfl
  refine s.blames (fun c hc j hj => ?_) (fun c hc => ?_) (fun o ho => ?_) h
  · rw [joins]
    exact List.mem_flatMap.mpr ⟨c, hc, hj⟩
  · simpa [cores, hs] using hc
  · simpa [operands, hs] using ho

theorem Rows.lacksKey_iff {r : Rows α} :
    r.lacksKey d = true ↔ r.needsKey = true ∧ r.isNative d = false ∧ r.key? = none := by
  simp [lacksKey, and_assoc]

end

/-- **A refusal has a reason.**  What a construct may be refused for is something that it lacks, or
something in it that the dialect does not support. -/
theorem Form.blames_of_mem_refusals {d : Dialect} {e : Error} {form : Form α}
    (h : e ∈ form.refusals d) : e.Blames d form := by
  cases form with
  | regexp left right caseSensitive negated =>
      cases d with
      | generic => exact Error.blames_of_feature h (by decide) .regexp
      | _ => cases caseSensitive <;> cases negated <;> cases h
  | extract expr field =>
      cases d with
      | sqlite => exact Error.blames_of_feature h (by decide) .extract
      | _ => cases h
  | join j => exact j.blames List.mem_cons_self h
  | select s => exact blames_of_select rfl h
  | insert s =>
      obtain ⟨table?, columns, source?⟩ := s
      simp only [refusals, Insert.refusals, List.mem_append] at h
      obtain h | h := h
      · exact Error.blames_of_gap h fun lacks =>
          .insertRelation (Option.isNone_iff_eq_none.mp lacks)
      · rcases source? with _ | _ | s
        · simp only at h
          split_ifs at h with none
          · cases h
          · exact .inl ⟨_, List.mem_singleton.mp h, .insertValues (by simpa using none) rfl⟩
        · cases h
        · exact blames_of_select rfl h
  | update s =>
      simp only [refusals, Update.refusals, List.mem_append] at h
      obtain ((h | h) | h) | h := h
      · exact Error.blames_of_gap h fun lacks =>
          .updateRelation (Option.isNone_iff_eq_none.mp lacks)
      · exact Error.blames_of_gap h fun lacks => .updateAssignments (List.isEmpty_iff.mp lacks)
      · refine Error.blames_of_gap h fun lacks => ?_
        obtain ⟨needs, foreign, key⟩ := Rows.lacksKey_iff.mp lacks
        exact .updateKey needs foreign key
      · exact s.rows.source.blames (fun j hj => hj) h
  | delete s =>
      simp only [refusals, Delete.refusals, List.mem_append] at h
      obtain (h | h) | h := h
      · exact Error.blames_of_gap h fun lacks =>
          .deleteRelation (Option.isNone_iff_eq_none.mp lacks)
      · refine Error.blames_of_gap h fun lacks => ?_
        obtain ⟨needs, foreign, key⟩ := Rows.lacksKey_iff.mp lacks
        exact .deleteKey needs foreign key
      · exact s.rows.source.blames (fun j hj => hj) h
  | _ => cases h

end SqlTree
