import SqlTree.Proofs.Reading.Agreement

/-!
# SqlTree — Proofs — row locks in SQLite

SQLite has no row locks, and none is written there.  But a lock is also one of the clauses that an
operand of a set operator may not have (`Select.isModified`), so that an operand with a lock and no
other clause is refused, although it could be written without the lock.

* `Node.sqlite_unlocked`: inline and compiled, a tree gives what it gives without its locks, unless
  it has such an operand and is refused for it.
-/

namespace SqlTree
open Draft

/-! ### Trees without locks -/

section
variable {α β : Type}

def Modifiers.unlocked (m : Modifiers α) : Modifiers α := { m with lock? := none }

def Select.unlocked : Select α → Select α
  | single core m => single core m.unlocked
  | compound op left right m => compound op left.unlocked right.unlocked m.unlocked

/-- The select has a lock, and no other clause. -/
def Select.isOnlyLocked (s : Select α) : Bool := s.isModified && !s.unlocked.isModified

def InsertSource.unlocked : InsertSource α → InsertSource α
  | values rows => values rows
  | select s => select s.unlocked

/-- The construct without locks, its subtrees as they are. -/
def Form.unlocked : Form α → Form α
  | select s => select s.unlocked
  | insert s => insert { s with source? := s.source?.map InsertSource.unlocked }
  | form => form

variable (f : α → β)

theorem Select.unlocked_map : ∀ s : Select α, (s.map f).unlocked = s.unlocked.map f
  | single _ _ => rfl
  | compound op left right m => by
      rw [map, unlocked, unlocked_map left, unlocked_map right]
      rfl

theorem Select.isOnlyLocked_map (s : Select α) : (s.map f).isOnlyLocked = s.isOnlyLocked := by
  rw [isOnlyLocked, unlocked_map, isModified_map, isModified_map, isOnlyLocked]

theorem Form.unlocked_map (form : Form α) : (form.map f).unlocked = form.unlocked.map f := by
  cases form with
  | select s => exact congrArg _ (s.unlocked_map f)
  | insert s =>
      obtain ⟨table?, columns, _ | _ | s⟩ := s
      · rfl
      · rfl
      · exact congrArg (fun s => Form.insert ⟨table?, columns, some (.select s)⟩) (s.unlocked_map f)
  | _ => rfl

theorem Select.operands_map : ∀ s : Select α,
    (s.map f).operands = s.operands.map fun o => (o.1, o.2.map f)
  | single _ _ => rfl
  | compound op left right m => by
      simp only [map, operands, operands_map left, operands_map right, List.map_cons,
        List.map_append]

theorem Form.operands_map (form : Form α) :
    (form.map f).operands = form.operands.map fun o => (o.1, o.2.map f) := by
  cases form with
  | select s => simpa [operands, select?, map] using s.operands_map f
  | insert s =>
      obtain ⟨table?, columns, _ | _ | s⟩ := s
      · rfl
      · rfl
      · simpa [operands, select?, map, Insert.map, InsertSource.map] using s.operands_map f
  | _ => rfl

theorem Select.parts_unlocked : ∀ s : Select α, s.unlocked.parts = s.parts
  | single _ _ => rfl
  | compound op left right m => by
      rw [unlocked, parts, parts, parts_unlocked left, parts_unlocked right]
      rfl

/-- Locks hold no subtrees. -/
theorem Form.parts_unlocked (form : Form α) : form.unlocked.parts = form.parts := by
  cases form with
  | select s => exact s.parts_unlocked
  | insert s =>
      obtain ⟨table?, columns, _ | _ | s⟩ := s
      · rfl
      · rfl
      · exact s.parts_unlocked
  | _ => rfl

end

namespace Node

/-- The tree without the locks of all selects in it. -/
def unlocked : Node → Node := fold fun form => of (form.map (·.2)).unlocked

theorem unlocked_of (form : Form Node) : (of form).unlocked = of (form.unlocked.map unlocked) := by
  rw [unlocked, fold_of, Form.map_map, Form.unlocked_map]

/-- An operand of a set operator has a lock and no other clause. -/
def hasLockedOperand (n : Node) : Bool :=
  n.subtrees.any fun m => m.form.operands.any fun o => o.2.isOnlyLocked

/-- Locks are not seen from outside. -/
theorem outline_unlocked (n : Node) : n.unlocked.outline = n.outline := by
  obtain ⟨form⟩ := n
  rw [unlocked_of]
  cases form with
  | unary op _ => cases op <;> rfl
  | list items => cases items <;> rfl
  | and items => rcases items with _ | ⟨_, _ | ⟨_, _ | _⟩⟩ <;> rfl
  | call c => rcases c with ⟨_, _, _, _ | ⟨_, _ | _⟩⟩ <;> rfl
  | _ => rfl

theorem strength_unlocked (n : Node) : n.unlocked.strength = n.strength := by
  induction n using Node.induction with
  | step form ih =>
      rw [unlocked_of]
      cases form with
      -- a conjunction of one item binds as that item
      | and items =>
          rcases items with _ | ⟨only, _ | _⟩
          · rfl
          · exact ih only (List.mem_singleton_self only)
          · rfl
      | _ => rfl

end Node

/-! ### Drafts that are the same or cut short -/

/-- The drafts are the same, or the first one stops at some point of the second with the error `e`,
for which there is a reason. -/
def Draft.SameOrCut (reason : Prop) (e : Error) (a b : Draft) : Prop :=
  a = b ∨ reason ∧ a.fault? = some e ∧ a.lexemes <+: b.lexemes

namespace Draft

/-- What was written stays at the beginning. -/
theorem lexemes_prefix_append (a b : Draft) : a.lexemes <+: (a ++ b).lexemes := by
  obtain ⟨ls, _ | e⟩ := a
  · exact List.prefix_append ls b.lexemes
  · exact List.prefix_rfl

namespace SameOrCut

variable {reason : Prop} {e : Error} {a a' b b' c : Draft}

theorem refl (a : Draft) : SameOrCut reason e a a := .inl rfl

theorem trans (hab : SameOrCut reason e a b) (hbc : SameOrCut reason e b c) :
    SameOrCut reason e a c := by
  obtain rfl | ⟨holds, stops, hab⟩ := hab
  · exact hbc
  · obtain rfl | ⟨-, -, hbc⟩ := hbc
    · exact .inr ⟨holds, stops, hab⟩
    · exact .inr ⟨holds, stops, hab.trans hbc⟩

theorem append (ha : SameOrCut reason e a a') (hb : SameOrCut reason e b b') :
    SameOrCut reason e (a ++ b) (a' ++ b') := by
  obtain rfl | ⟨holds, stops, begins⟩ := ha
  · obtain rfl | ⟨holds, stops, begins⟩ := hb
    · exact refl _
    · obtain ⟨ls, _ | e'⟩ := a
      · exact .inr ⟨holds, stops, (List.prefix_append_right_inj ls).mpr begins⟩
      -- both stop before the cut
      · exact refl _
  · refine .inr ⟨holds, by rw [fault?_append, stops, Option.some_or], ?_⟩
    obtain ⟨ls, _⟩ := a
    cases stops
    exact begins.trans (lexemes_prefix_append a' b')

theorem congruence : Congruence (SameOrCut reason e) :=
  .of_lexemes (refl _) append fun _ _ => refl _

theorem compile (d : Dialect) (h : SameOrCut reason e a b) :
    a.compile d = b.compile d ∨ reason ∧ a.compile d = .error e := by
  obtain rfl | ⟨holds, stops, -⟩ := h
  · exact .inl rfl
  · refine .inr ⟨holds, ?_⟩
    rw [Draft.compile, stops]

/-- A slot without a value that stands before the cut stops the reading on both sides. -/
theorem toSql (d : Dialect) (h : SameOrCut reason e a b) :
    a.toSql d = b.toSql d ∨ reason ∧ a.toSql d = .error e := by
  obtain rfl | ⟨holds, stops, rest, begins⟩ := h
  · exact .inl rfl
  have slots : Query.slots b.lexemes = Query.slots a.lexemes ++ Query.slots rest := by
    rw [← begins, Query.slots, List.filterMap_append]
    rfl
  rw [toSql_eq, toSql_eq, stops, slots, firstUnbound, firstUnbound, List.find?_append]
  cases (Query.slots a.lexemes).find? (·.value?.isNone) with
  | some bind => exact .inl rfl
  | none => exact .inr ⟨holds, rfl⟩

end SameOrCut

end Draft

/-! ### Writing without locks -/

/-- The first draft is cut short, if it is, by an operand of a set operator that has clauses. -/
abbrev Draft.CutAtOperand (reason : Prop) (a b : Draft) : Prop :=
  SameOrCut reason (.unsupported .modifiedOperand .sqlite) a b

/-- Clauses are written as they are without the lock. -/
theorem Modifiers.around_unlocked (m : Modifiers Part) (body : Draft) :
    m.unlocked.around .sqlite body = m.around .sqlite body := by
  obtain ⟨with?, orders, limit?, offset?, _ | lock⟩ := m <;> rfl

/-- A clause that is there without the lock is there with it. -/
theorem Select.isModified_of_unlocked {α : Type} {s : Select α}
    (h : s.unlocked.isModified = true) : s.isModified = true := by
  cases s <;> simp_all [isModified, unlocked, modifiers, Modifiers.isEmpty, Modifiers.unlocked]

section
variable {reason : Prop}

/-- What stands in the way of an operand stands there without the lock, unless it is the lock. -/
theorem operandDraft_unlocked (op : SetOperator) (isLeft : Bool) (s : Select Part)
    (alone : s.isOnlyLocked = true → reason) {a b : Draft}
    (h : CutAtOperand reason a b) :
    CutAtOperand reason (operandDraft .sqlite op isLeft s a)
      (operandDraft .sqlite op isLeft s.unlocked b) := by
  have compound : s.unlocked.core?.isNone = s.core?.isNone := by cases s <;> rfl
  simp only [operandDraft, compound]
  by_cases rest : s.unlocked.isModified = true
  · rw [if_pos rest, if_pos (Select.isModified_of_unlocked rest)]
    exact .refl _
  · rw [if_neg rest]
    by_cases locked : s.isModified = true
    · rw [if_pos locked]
      refine .inr ⟨alone ?_, rfl, List.nil_prefix⟩
      simp [Select.isOnlyLocked, locked, rest]
    · rw [if_neg locked]
      split
      · exact .refl _
      · exact h

theorem Select.draft_unlocked : ∀ s : Select Part,
    (∀ o ∈ s.operands, o.2.isOnlyLocked = true → reason) →
      CutAtOperand reason (s.draft .sqlite) (s.unlocked.draft .sqlite)
  | .single core m, _ => by
      rw [unlocked, draft, draft, m.around_unlocked]
      exact .refl _
  | .compound op left right m, alone => by
      simp only [operands, List.mem_cons, List.mem_append] at alone
      have left_operand := operandDraft_unlocked op true left (alone _ (.inl rfl))
        (Select.draft_unlocked left fun o ho => alone o (.inr (.inr (.inl ho))))
      have right_operand := operandDraft_unlocked op false right (alone _ (.inr (.inl rfl)))
        (Select.draft_unlocked right fun o ho => alone o (.inr (.inr (.inr ho))))
      rw [unlocked, draft, draft, m.around_unlocked]
      -- the clauses around the operands are the same on both sides
      have sign : CutAtOperand reason _ _ := .refl (fixed (" " ++ op.text ++ " "))
      have body := (left_operand.append sign).append right_operand
      exact ((((SameOrCut.refl _).append body).append (.refl _)).append (.refl _)).append (.refl _)

theorem Insert.draft_unlocked (table? : Option Table) (columns : List Column) {s : Select Part}
    (h : CutAtOperand reason (s.draft .sqlite) (s.unlocked.draft .sqlite)) :
    CutAtOperand reason
      (Insert.draft .sqlite ⟨table?, columns, some (.select s)⟩)
      (Insert.draft .sqlite ⟨table?, columns, some (.select s.unlocked)⟩) := by
  cases table? with
  | none => exact .refl _
  | some t => exact (SameOrCut.refl _).append ((SameOrCut.refl _).append h)

/-- A construct is written as it is without locks, unless an operand has nothing else. -/
theorem Form.draft_unlocked (form : Form Part) (place : Place)
    (alone : ∀ o ∈ form.operands, o.2.isOnlyLocked = true → reason) :
    CutAtOperand reason (form.draft .sqlite place) (form.unlocked.draft .sqlite place) := by
  cases form with
  | select s =>
      have statement := s.draft_unlocked fun o ho => alone o (by simpa [operands, select?] using ho)
      cases place with
      | statement => exact statement
      | _ => exact SameOrCut.congruence.parens statement
  | insert s =>
      obtain ⟨table?, columns, _ | rows | s⟩ := s
      · exact .refl _
      · exact .refl _
      · have statement := s.draft_unlocked fun o ho =>
          alone o (by simpa [operands, select?] using ho)
        cases place <;> exact Insert.draft_unlocked table? columns statement
  | _ => exact .refl _

end

namespace Node

theorem draft_unlocked {reason : Prop} (n : Node) (place : Place)
    (alone : ∀ m ∈ n.subtrees, ∀ o ∈ m.form.operands, o.2.isOnlyLocked = true → reason) :
    CutAtOperand reason (n.draft .sqlite place) (n.unlocked.draft .sqlite place) := by
  induction n using Node.induction generalizing place with
  | step form ih =>
      have parts : ∀ n ∈ form.unlocked.parts,
          Part.Alike (CutAtOperand reason) (n.part .sqlite) (n.unlocked.part .sqlite) := by
        intro n hn
        rw [Form.parts_unlocked] at hn
        have outline := n.outline_unlocked.symm
        refine ⟨outline, n.strength_unlocked.symm, fun place => ?_, fun _ _ => .refl _⟩
        exact ih n hn place fun m hm => alone m (mem_subtrees_of_mem_parts hn hm)
      have operands : ∀ o ∈ (form.map (part .sqlite)).operands,
          o.2.isOnlyLocked = true → reason := by
        intro o ho holds
        rw [Form.operands_map] at ho
        obtain ⟨operand, within, rfl⟩ := List.mem_map.mp ho
        rw [Select.isOnlyLocked_map] at holds
        exact alone (of form) (self_mem_subtrees _) operand within holds
      -- first the locks of the construct go, then those within its parts
      have root := (form.map (part .sqlite)).draft_unlocked place operands
      rw [Form.unlocked_map] at root
      rw [unlocked_of, draft_of, draft_of, Form.map_map]
      exact root.trans (form.unlocked.draft_uniform SameOrCut.congruence .sqlite parts
        (fun _ _ => .refl _) (fun _ _ => ⟨.refl _, .refl _⟩) (fun _ _ => .refl _) place)

/-- **SQLite ignores row locks**, except that an operand of a set operator that has a lock and no
other clause is refused: inline and compiled, a tree gives what it gives without its locks, or it
has such an operand and that is why it is refused. -/
theorem sqlite_unlocked (n : Node) :
    (n.toSql .sqlite = n.unlocked.toSql .sqlite ∨
        n.hasLockedOperand = true ∧
          n.toSql .sqlite = .error (.unsupported .modifiedOperand .sqlite)) ∧
      (n.compile .sqlite = n.unlocked.compile .sqlite ∨
        n.hasLockedOperand = true ∧
          n.compile .sqlite = .error (.unsupported .modifiedOperand .sqlite)) := by
  have reason : ∀ m ∈ n.subtrees, ∀ o ∈ m.form.operands, o.2.isOnlyLocked = true →
      n.hasLockedOperand = true :=
    fun m hm o ho h => List.any_eq_true.mpr ⟨m, hm, List.any_eq_true.mpr ⟨o, ho, h⟩⟩
  have written := n.draft_unlocked .statement reason
  exact ⟨written.toSql .sqlite, written.compile .sqlite⟩

/-- A union whose left operand has a lock cannot be written, and without the lock it can. -/
theorem sqlite_lock_refused :
    let rows (lock? : Option Lock) : Select Node :=
      .single
        { projections := [of (.column ⟨⟨"t", none⟩, "a"⟩)]
          source := ⟨some (of (.table ⟨"t", none⟩)), []⟩ }
        { lock? := lock? }
    let n : Node := of (.select (.compound .union (rows (some .forUpdate)) (rows none) {}))
    n.hasLockedOperand = true ∧
      n.toSql .sqlite = .error (.unsupported .modifiedOperand .sqlite) ∧
      n.unlocked.toSql .sqlite =
        .ok "SELECT \"t\".\"a\" FROM \"t\" UNION SELECT \"t\".\"a\" FROM \"t\"" := by
  intro rows n
  have unlocked : n.unlocked = of (.select (.compound .union (rows none) (rows none) {})) := rfl
  refine ⟨by decide, rfl, ?_⟩
  rw [unlocked]
  decide +kernel

end Node

end SqlTree
