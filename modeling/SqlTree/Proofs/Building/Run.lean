import SqlTree.Proofs.Building.Step
import SqlTree.Proofs.Reading.Agreement

/-!
# SqlTree — Proofs — builders in a run

A program makes selects one after the other, calls them in any order, and puts them under set
operators.  It is a list of commands, which name the builders by the order in which they were made.
The same commands make the builders and, beside each of them, the history of how it came about
(`Command.builders_eq`).

* `History.misplaced`: the clauses that were put to a compound select, in the order in which they
  stand in the history: those of the left operand, those of the right one, then its own.
* `History.fault?_builder`: a builder remembers the first of them and nothing else.
* `Command.builder_in_run`: what this comes to for each builder of a run, when it is called, when it
  is combined with another, and when it is written.
-/

namespace SqlTree
open SelectBuilder

/-! ### Commands -/

inductive Command where
  | new
  /-- A call on a builder. -/
  | call (k : Nat) (s : Step)
  | combine (op : SetOperator) (left right : Nat)
  | clone (k : Nat)

/-- What commands are about: the selects themselves, or the record of how they were made. -/
structure Maker (β : Type) where
  new : β
  call : Step → β → β
  combine : SetOperator → β → β → β

namespace Command

variable {β : Type} (m : Maker β)

/-- One more command, given what was made so far.  One that names nothing does nothing. -/
def exec (made : List β) : Command → List β
  | new => made ++ [m.new]
  | call k s => made.modify k (m.call s)
  | combine op i j =>
    match made[i]?, made[j]? with
    | some a, some b => made ++ [m.combine op a b]
    | _, _ => made
  | clone k => made ++ made[k]?.toList

def run (cs : List Command) (made : List β) : List β := cs.foldl (exec m) made

theorem run_append (cs cs' : List Command) (made : List β) :
    run m (cs ++ cs') made = run m cs' (run m cs made) :=
  List.foldl_append

variable {m}

/-- A command leaves what was made so far, but for what it calls. -/
theorem getElem?_exec {made : List β} {k : Nat} {b : β} (hb : made[k]? = some b) (c : Command) :
    (exec m made c)[k]? = some b ∨
      ∃ s, c = .call k s ∧ (exec m made c)[k]? = some (m.call s b) := by
  have kept (more : List β) : (made ++ more)[k]? = some b := by
    rw [List.getElem?_append_left (List.getElem?_eq_some_iff.mp hb).1, hb]
  cases c with
  | new => exact .inl (kept _)
  | call i s =>
      by_cases h : i = k
      · subst h
        exact .inr ⟨s, rfl, by simp [exec, hb]⟩
      · exact .inl (by simp [exec, h, hb])
  | combine op i j =>
      refine .inl ?_
      rw [exec]
      split
      · exact kept _
      · exact hb
  | clone i => exact .inl (kept _)

/-- What every call on it keeps is kept while other commands run. -/
theorem getElem?_run {P : β → Prop} {made : List β} {k : Nat} {b : β} (hb : made[k]? = some b)
    (cs : List Command) (calls : ∀ s, .call k s ∈ cs → ∀ b, P b → P (m.call s b)) (h : P b) :
    ∃ b', (run m cs made)[k]? = some b' ∧ P b' := by
  induction cs generalizing made b with
  | nil => exact ⟨b, hb, h⟩
  | cons c cs ih =>
      have later : ∀ s, .call k s ∈ cs → ∀ b, P b → P (m.call s b) := fun s hs =>
        calls s (List.mem_cons_of_mem c hs)
      obtain hb' | ⟨s, rfl, hb'⟩ := getElem?_exec (m := m) hb c
      · exact ih hb' later h
      · exact ih hb' later (calls s List.mem_cons_self b h)

end Command

/-! ### Histories -/

/-- How a builder was made. -/
inductive History where
  | new
  | call (h : History) (s : Step)
  | combine (op : SetOperator) (left right : History)

namespace History

def builder : History → SelectBuilder
  | new => .empty
  | call h s => s.after h.builder
  | combine op left right => .combine op left.builder right.builder

/-- There was a set operator. -/
def isCompound : History → Bool
  | new => false
  | call h _ => h.isCompound
  | combine .. => true

/-- The clauses of one block that were put to a select when it was compound already: to the left
operand, to the right operand, and to the select itself. -/
def misplaced : History → List Clause
  | new => []
  | call h s => h.misplaced ++ (if h.isCompound then s.clause?.toList else [])
  | combine _ left right => left.misplaced ++ right.misplaced

@[simp] theorem isCompound_builder : ∀ h : History, h.builder.isCompound = h.isCompound
  | new => rfl
  | call h s => (s.isCompound_after h.builder).trans h.isCompound_builder
  | combine .. => rfl

/-- **A builder remembers the first clause that was misplaced.** -/
theorem fault?_builder : ∀ h : History, h.builder.fault? = h.misplaced.head?.map .clauseOfCompound
  | new => rfl
  | call h s => by
      have ih := h.fault?_builder
      rw [builder, Step.fault?_after, isCompound_builder, ih, misplaced, List.head?_append,
        Option.map_or]
      refine congrArg _ ?_
      split_ifs
      · cases s.clause? <;> rfl
      · rfl
  | combine op left right => by
      rw [misplaced, List.head?_append, Option.map_or, ← left.fault?_builder,
        ← right.fault?_builder]
      rfl

theorem misplaced_of_single : ∀ {h : History}, h.isCompound = false → h.misplaced = []
  | new, _ => rfl
  | call h s, single => by
      have single : h.isCompound = false := single
      rw [misplaced, misplaced_of_single single, single]
      rfl
  | combine .., single => nomatch single

end History

/-! ### What a builder is written as -/

/-- A tree is never refused for a clause of a compound select. -/
theorem Node.compile_ne_clauseOfCompound (d : Dialect) (n : Node) (c : Clause) :
    n.compile d ≠ .error (.clauseOfCompound c) := fun h =>
  (isRefusal_of_fault (compile_eq_error_iff.mp h)).ne_clauseOfCompound c rfl

theorem Node.toSql_ne_clauseOfCompound (d : Dialect) (n : Node) (c : Clause) :
    n.toSql d ≠ .error (.clauseOfCompound c) := by
  intro h
  rw [toSql, Draft.toSql_eq] at h
  split at h
  · cases h
  · rename_i e stopped
    obtain rfl : e = .clauseOfCompound c := Except.error.inj h
    obtain unbound | ⟨-, fault⟩ := Option.or_eq_some_iff.mp stopped
    · obtain ⟨b, -, unbound⟩ := Option.map_eq_some_iff.mp unbound
      cases unbound
    · exact (isRefusal_of_fault fault).ne_clauseOfCompound c rfl

namespace SelectBuilder

variable {b : SelectBuilder} {h : History} (made : h.builder = b) (d : Dialect)
include made

theorem draft_of_misplaced {c : Clause} (first : h.misplaced.head? = some c) :
    b.draft d = .fail (.clauseOfCompound c) := by
  have fault : b.fault? = some (.clauseOfCompound c) := by
    rw [← made, History.fault?_builder, first]
    rfl
  rw [draft, fault]

theorem draft_of_misplaced_eq_nil (none : h.misplaced = []) :
    b.draft d = (Node.of (.select b.select)).draft d .statement := by
  have fault : b.fault? = .none := by
    rw [← made, History.fault?_builder, none]
    rfl
  rw [draft, fault]

/-- What is read from a builder fails for the first misplaced clause, and only for that. -/
theorem read_eq_error_iff {α : Type} (read : Draft → Except Error α)
    (fail : ∀ e, read (.fail e) = .error e)
    (select : ∀ c, read ((Node.of (.select b.select)).draft d .statement) ≠
      .error (.clauseOfCompound c)) (c : Clause) :
    read (b.draft d) = .error (.clauseOfCompound c) ↔ h.misplaced.head? = some c := by
  cases first : h.misplaced.head? with
  | none =>
      rw [draft_of_misplaced_eq_nil made d (List.head?_eq_none_iff.mp first)]
      exact ⟨fun failed => absurd failed (select c), nofun⟩
  | some c' =>
      rw [draft_of_misplaced made d first, fail]
      simp

end SelectBuilder

/-! ### Builders of a run -/

namespace Command

/-- The commands make the builders themselves. -/
def onBuilders : Maker SelectBuilder := ⟨.empty, Step.after, .combine⟩

/-- The commands make the histories of the builders. -/
def onHistories : Maker History := ⟨.new, fun s h => .call h s, .combine⟩

/-- The builders after the commands, in the order in which they were made. -/
def builders (cs : List Command) : List SelectBuilder := run onBuilders cs []

/-- The histories of the builders after the commands. -/
def histories (cs : List Command) : List History := run onHistories cs []

theorem exec_builder (made : List History) (c : Command) :
    exec onBuilders (made.map History.builder) c =
      (exec onHistories made c).map History.builder := by
  cases c with
  | new => simp [exec, onBuilders, onHistories, History.builder]
  | call k s =>
      refine List.ext_getElem? fun i => ?_
      by_cases h : k = i
      · subst h
        cases hk : made[k]? <;> simp [exec, onBuilders, onHistories, History.builder, hk]
      · simp [exec, h]
  | combine op i j =>
      simp only [exec, List.getElem?_map]
      cases made[i]? with
      | none => rfl
      | some left =>
          cases made[j]? with
          | none => rfl
          | some right => simp [onBuilders, onHistories, History.builder]
  | clone k => simp [exec, Option.toList_map]

/-- Each builder of a run is made as its history says. -/
theorem builders_eq (cs : List Command) : builders cs = (histories cs).map History.builder := by
  show cs.foldl (exec onBuilders) ([].map History.builder) = _
  exact List.foldl_hom _ exec_builder

/-- **Builders in a run.**  Whatever is made by the commands, a select with one block has no fault.
A compound one is left as it is by every call for a block, and a call for the constraint of a join
fails.  A fault never changes, and a builder changes only when it is called itself.  Two builders
under a set operator have the fault of the left one, or else of the right one.  So the writing of a
builder fails for a clause if that is the first one in its history that was misplaced; if there is
none, the builder is written as its select. -/
theorem builder_in_run (cs : List Command) (k : Nat) (b : SelectBuilder)
    (hb : (builders cs)[k]? = some b) :
    (b.isCompound = false → b.fault? = none) ∧
    (b.isCompound = true → (∀ s : CoreStep, (s.call b).select = b.select) ∧
      ∀ s : ConstraintStep,
        s.call b = .error (.clauseOfCompound s.clause) ∧ (Step.constraint s).after b = b) ∧
    (∀ cs' e, b.fault? = some e →
      ∃ b', (builders (cs ++ cs'))[k]? = some b' ∧ b'.fault? = some e) ∧
    (∀ cs', (∀ s, .call k s ∉ cs') → (builders (cs ++ cs'))[k]? = some b) ∧
    (∀ op j b', (builders cs)[j]? = some b' →
      builders (cs ++ [.combine op k j]) =
        builders cs ++ [⟨.compound op b.select b'.select {}, b.fault?.or b'.fault?⟩]) ∧
    ∃ h, (histories cs)[k]? = some h ∧ h.builder = b ∧ ∀ d,
      (∀ c, (b.draft d).toSql d = .error (.clauseOfCompound c) ↔ h.misplaced.head? = some c) ∧
      (∀ c, (b.draft d).compile d = .error (.clauseOfCompound c) ↔ h.misplaced.head? = some c) ∧
      (h.misplaced = [] →
        (b.draft d).toSql d = (Node.of (.select b.select)).toSql d ∧
        (b.draft d).compile d = (Node.of (.select b.select)).compile d) := by
  obtain ⟨h, hh, made⟩ : ∃ h, (histories cs)[k]? = some h ∧ h.builder = b := by
    rw [builders_eq, List.getElem?_map] at hb
    exact Option.map_eq_some_iff.mp hb
  refine ⟨fun single => ?_, fun compound => ⟨fun s => ?_, fun s => ⟨?_, ?_⟩⟩, fun cs' e fault => ?_,
    fun cs' uncalled => ?_, fun op j b' hb' => ?_, h, hh, made, fun d => ⟨?_, ?_, fun none => ?_⟩⟩
  · rw [← made, History.isCompound_builder] at single
    rw [← made, History.fault?_builder, History.misplaced_of_single single]
    rfl
  · rw [s.call_of_compound compound]
  · exact s.call_of_compound compound
  · exact s.after_of_compound compound
  · rw [builders, run_append]
    exact getElem?_run hb cs' (fun s _ b => s.fault?_after_of_fault b) fault
  · rw [builders, run_append]
    obtain ⟨b', hb', rfl⟩ := getElem?_run (m := onBuilders) (P := (· = b)) hb cs'
      (fun s hs => absurd hs (uncalled s)) rfl
    exact hb'
  · rw [builders, run_append]
    show exec onBuilders (builders cs) (.combine op k j) = _
    rw [exec, hb, hb']
    rfl
  · exact read_eq_error_iff made d (·.toSql d) (fun _ => rfl) (Node.toSql_ne_clauseOfCompound d _)
  · exact read_eq_error_iff made d (·.compile d) (fun _ => rfl)
      (Node.compile_ne_clauseOfCompound d _)
  · rw [draft_of_misplaced_eq_nil made d none]
    exact ⟨rfl, rfl⟩

/-- A filter and then DISTINCT, put to a union that is the right operand of a set operator later. -/
theorem builder_in_run_of_union :
    let cs : List Command := [.new, .combine .union 0 0, .call 1 (.core (.filter (.of .star))),
      .call 1 (.core .distinct), .combine .except 0 1]
    ∃ b, (builders cs)[2]? = some b ∧
      ∀ d, (b.draft d).compile d = .error (.clauseOfCompound .filter) := by
  intro cs
  obtain ⟨-, -, -, -, -, h, hh, -, written⟩ := builder_in_run cs 2 _ rfl
  obtain rfl := Option.some.inj hh
  exact ⟨_, rfl, fun d => ((written d).2.1 .filter).mpr rfl⟩

end Command

end SqlTree
