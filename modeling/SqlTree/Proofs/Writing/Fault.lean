import SqlTree.Proofs.Writing.Supported
import SqlTree.Proofs.Writing.Uniform.Node
import SqlTree.Sql.Query

/-!
# SqlTree — Proofs — why writing stops

A draft stops only where some construct of the tree is refused (`Node.fault_mem_refusals`).  A
refusal is about what is missing or about what the dialect cannot spell; it never blames a value
(`Node.isRefusal_of_fault`).
-/

namespace SqlTree

/-- An error that is found by writing a tree in the dialect. -/
def Error.IsRefusal (d : Dialect) (e : Error) : Prop :=
  (∃ gap, e = .incomplete gap) ∨ ∃ feature, e = .unsupported feature d

namespace Error.IsRefusal

variable {d : Dialect} {e : Error}

theorem of_blames {α : Type} {form : Form α} (h : e.Blames d form) : e.IsRefusal d := by
  obtain ⟨gap, rfl, -⟩ | ⟨feature, -, rfl, -⟩ := h
  · exact .inl ⟨gap, rfl⟩
  · exact .inr ⟨feature, rfl⟩

theorem ne_unboundParameter (h : e.IsRefusal d) (name : String) : e ≠ .unboundParameter name := by
  rintro rfl
  obtain ⟨_, h⟩ | ⟨_, h⟩ := h <;> cases h

theorem ne_clauseOfCompound (h : e.IsRefusal d) (clause : Clause) :
    e ≠ .clauseOfCompound clause := by
  rintro rfl
  obtain ⟨_, h⟩ | ⟨_, h⟩ := h <;> cases h

end Error.IsRefusal

/-! ### The fault of a tree -/

/-- Writing comes to the end where it does for each piece. -/
theorem Draft.congruence_isWhole : Draft.Congruence fun a _ => a.IsWhole :=
  .of_lexemes rfl (fun ha hb => Draft.isWhole_append.mpr ⟨ha, hb⟩) fun _ _ => rfl

namespace Node

variable {d : Dialect} {e : Error}

/-- What a tree may be refused for is the fault of one of its subtrees. -/
theorem exists_blamed {n : Node} (h : e ∈ n.refusals d) :
    ∃ m ∈ n.subtrees, e.Blames d m.form := by
  induction n using Node.induction with
  | step form ih =>
      rw [refusals_of, List.mem_append, List.mem_flatMap] at h
      obtain h | ⟨n, hn, h⟩ := h
      · exact ⟨of form, self_mem_subtrees _, Form.blames_of_mem_refusals h⟩
      · obtain ⟨m, hm, blamed⟩ := ih n hn h
        exact ⟨m, mem_subtrees_of_mem_parts hn hm, blamed⟩

/-- Writing a tree stops only at a refusal of one of its constructs. -/
theorem fault_mem_refusals {n : Node} {place : Place} (h : (n.draft d place).fault? = some e) :
    e ∈ n.refusals d := by
  have kept : Draft.Congruence fun a _ => ∀ e ∈ a.fault?, e ∈ n.refusals d :=
    .of_lexemes nofun
      (fun {a _ b _} ha hb e he => by
        rw [Draft.fault?_append, Option.mem_def, Option.or_eq_some_iff] at he
        obtain he | ⟨_, he⟩ := he
        · exact ha e he
        · exact hb e he)
      fun _ _ => nofun
  refine draft_kept kept d n (fun _ _ => nofun) (fun _ _ => ⟨nofun, nofun⟩) (fun e he e' he' => ?_)
    place e h
  obtain rfl : e = e' := Option.some.inj he'
  exact he

theorem isRefusal_of_fault {n : Node} {place : Place}
    (h : (n.draft d place).fault? = some e) : e.IsRefusal d := by
  obtain ⟨m, -, blamed⟩ := exists_blamed (fault_mem_refusals h)
  exact .of_blames blamed

/-! ### Trees that can be written -/

/-- The tree can be written in the dialect. -/
def Renders (d : Dialect) (n : Node) : Prop := (n.draft d .statement).IsWhole

theorem renders_iff {n : Node} : n.Renders d ↔ ∃ q, n.compile d = .ok q := by
  simp only [Renders, Draft.IsWhole, compile, Draft.compile]
  cases (n.draft d .statement).fault? <;> simp

theorem compile_eq_error_iff {n : Node} :
    n.compile d = .error e ↔ (n.draft d .statement).fault? = some e := by
  simp only [compile, Draft.compile]
  cases (n.draft d .statement).fault? <;> simp

/-- What can be written as a statement can be written at every place. -/
theorem Renders.isWhole {n : Node} (h : n.Renders d) (place : Place) :
    (n.draft d place).IsWhole := by
  obtain ⟨form⟩ := n
  have item : ((of form).draft d .item).IsWhole := by
    rw [Renders, draft_of, Form.draft_statement] at h
    rw [draft_of, Form.draft_item]
    cases form with
    | select s => exact Draft.isWhole_parens.mpr h
    | _ => exact h
  cases place with
  | item => exact item
  | statement => exact h
  | element =>
      rw [draft_of, Form.draft_item] at item
      rw [draft_of, Form.draft_element]
      cases form with
      -- without the parentheses of a grouping
      | unary op inner =>
          cases op with
          | grouping => exact Part.isWhole_enclosed.mp item
          | _ => exact item
      | _ => exact item
  | bounds =>
      rw [draft_of, Form.draft_item] at item
      rw [draft_of, Form.draft_bounds]
      cases form with
      | and items =>
          rcases items with _ | ⟨low, _ | ⟨high, _ | _⟩⟩
          · exact item
          · exact item
          -- the bounds of BETWEEN have other parentheses than a conjunction, and the same drafts
          · have parts : (low.part d).item.IsWhole ∧ (high.part d).item.IsWhole := by
              simpa [Form.map, Form.item, conjunction, Part.conjuncts, Draft.sepBy] using item
            simpa [Form.map, boundsDraft] using parts
          · exact item
      | _ => exact item

/-- A tree that can be written, as a part. -/
theorem Renders.alike {n : Node} (h : n.Renders d) :
    Part.Alike (fun a _ => a.IsWhole) (n.part d) (n.part d) :=
  ⟨rfl, rfl, h.isWhole, fun _ _ => rfl⟩

/-- A construct that is not refused can be written if its parts can. -/
theorem isWhole_of_parts {form : Form Node} (parts : ∀ n ∈ form.parts, n.Renders d)
    (unrefused : form.refusals d = []) (place : Place) : ((of form).draft d place).IsWhole := by
  rw [draft_of]
  refine form.draft_uniform Draft.congruence_isWhole d (u := part d) (v := part d)
    (fun n hn => (parts n hn).alike) ?_ (fun _ _ => ⟨rfl, rfl⟩) (fun _ _ => rfl) place
  rw [unrefused]
  exact nofun

/-- A join that can be written is not refused. -/
theorem refusals_of_join {j : Join Node} (h : (of (.join j)).Renders d) : j.refusals d = [] := by
  rw [Renders, draft_of] at h
  obtain ⟨kind, relation, constraint?⟩ := j
  have unrefused (word : Except Error String) (hword : (Draft.ofWord word).IsWhole) :
      wordRefusals word = [] := by
    cases word with
    | ok text => rfl
    | error e => cases hword
  cases kind with
  | raw => rfl
  | _ => exact unrefused _ (by
      simp only [Form.map, Join.map, Form.draft_statement, Form.item, Join.draft] at h
      exact (Draft.isWhole_append.mp (Draft.isWhole_append.mp (Draft.isWhole_append.mp h).1).1).1)

/-! ### Trees that a dialect supports -/

/-- No statement in the tree is incomplete, and the dialect supports every construct in it. -/
def IsSupported (d : Dialect) (n : Node) : Prop :=
  ∀ m ∈ n.subtrees,
    (∀ gap, ¬m.form.Lacks d gap) ∧ ∀ feature ∈ d.unsupported, ¬m.form.Uses feature

/-- **What a dialect can write.**  A tree is compiled if the dialect supports it.  If it is refused,
the error says what a statement in it lacks or which construct in it the dialect does not support;
it is never about a parameter, a clause of a compound select, or the keyword of a raw join. -/
theorem compile_or_blame (d : Dialect) (n : Node) :
    (n.IsSupported d → ∃ q, n.compile d = .ok q) ∧
      ∀ e, n.compile d = .error e →
        (∃ m ∈ n.subtrees, e.Blames d m.form) ∧ (∀ name, e ≠ .unboundParameter name) ∧
          (∀ clause, e ≠ .clauseOfCompound clause) ∧ ∀ d', e ≠ .unsupported .rawJoinKeyword d' := by
  have blame : ∀ e, n.compile d = .error e → ∃ m ∈ n.subtrees, e.Blames d m.form := fun e he =>
    exists_blamed (fault_mem_refusals (compile_eq_error_iff.mp he))
  refine ⟨fun supported => ?_, fun e he => ?_⟩
  · cases compiled : n.compile d with
    | ok q => exact ⟨q, rfl⟩
    | error e =>
        obtain ⟨m, hm, ⟨gap, -, lacks⟩ | ⟨feature, unsupported, -, uses⟩⟩ := blame e compiled
        · exact absurd lacks ((supported m hm).1 gap)
        · exact absurd uses ((supported m hm).2 feature unsupported)
  · obtain ⟨m, hm, blamed⟩ := blame e he
    refine ⟨⟨m, hm, blamed⟩, ?_⟩
    obtain ⟨gap, rfl, -⟩ | ⟨feature, unsupported, rfl, -⟩ := blamed
    · exact ⟨nofun, nofun, nofun⟩
    · refine ⟨nofun, nofun, fun d' h => ?_⟩
      obtain ⟨rfl, rfl⟩ := Error.unsupported.inj h
      cases d <;> exact absurd unsupported (by decide)

/-- A date, and the part of it that one dialect has no spelling for. -/
theorem compile_or_blame_of_extract :
    let day := of (.param ⟨some "day", none⟩)
    let year := of (.extract day "YEAR")
    (∃ q, day.compile .sqlite = .ok q) ∧
      year.compile .sqlite = .error (.unsupported .extract .sqlite) ∧
      ∃ m ∈ year.subtrees, m.form.Uses .extract := by
  intro day year
  have supported : day.IsSupported .sqlite := by
    intro m hm
    obtain rfl : m = day := List.mem_singleton.mp hm
    refine ⟨fun gap lacks => ?_, fun feature _ uses => ?_⟩
    · cases lacks with
      | selectRelation h => cases h
    · cases uses with
      | distinctOn h | fullOuterJoin h | modifiedOperand h | nestedOperand h => cases h
  have refused : year.compile .sqlite = .error (.unsupported .extract .sqlite) := rfl
  obtain ⟨⟨m, hm, blamed⟩, -⟩ := (compile_or_blame .sqlite year).2 _ refused
  obtain ⟨gap, ⟨⟩, -⟩ | ⟨feature, -, ⟨rfl⟩, uses⟩ := blamed
  exact ⟨(compile_or_blame .sqlite day).1 supported, refused, m, hm, uses⟩

end Node

end SqlTree
