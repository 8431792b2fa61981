import SqlTree.Builder.Select

/-!
# SqlTree — Proofs — calls on a builder

A call on a select is for a clause of its one block, for the constraint of its last join, or for a
clause of the whole.  Of the calls for a block all that matters here is which clause they are for:
each is the same kind of change (`CoreStep.exists_edit`).

* `Step.isCompound_after`: no call makes a compound select of one that is not, or the other way.
* `Step.fault?_after`: a call leaves a fault only if it is for a clause of a block and the select is
  compound, and then only if there is none yet.
-/

namespace SqlTree

/-! ### Calls that may fail -/

section
variable {σ : Type} {call : σ → Except Error σ} {s s' : σ} {e : Error}

/-- What a call leaves; one that fails leaves what there was. -/
def afterCall (call : σ → Except Error σ) (s : σ) : σ :=
  match call s with
  | .ok s' => s'
  | .error _ => s

theorem afterCall_of_ok (h : call s = .ok s') : afterCall call s = s' := by
  rw [afterCall, h]

theorem afterCall_of_error (h : call s = .error e) : afterCall call s = s := by
  rw [afterCall, h]

end

/-- A select that has no block of its own. -/
def SelectBuilder.isCompound (b : SelectBuilder) : Bool := b.select.core?.isNone

/-! ### Calls -/

/-- A call for a clause of one block. -/
inductive CoreStep where
  | fromRelation (relation : Node)
  | project (projections : List Node)
  | filter (predicate : Node)
  | join (kind : JoinKind) (relation : Node)
  | group (exprs : List Node)
  | having (predicate : Node)
  | distinct
  | distinctOn (exprs : List Node)
  | window (w : NamedWindow Node)
  | comment (text : String)
  | hints (texts : List String)

namespace CoreStep

def clause : CoreStep → Clause
  | fromRelation _ => .relation
  | project _ => .projections
  | filter _ => .filter
  | join .. => .join
  | group _ => .groupBy
  | having _ => .having
  | distinct => .distinct
  | distinctOn _ => .distinctOn
  | window _ => .window
  | comment _ => .comment
  | hints _ => .hints

def call : CoreStep → SelectBuilder → SelectBuilder
  | fromRelation relation => .fromRelation relation
  | project projections => .project projections
  | filter predicate => .filter predicate
  | join kind relation => .join kind relation
  | group exprs => .group exprs
  | having predicate => .having predicate
  | distinct => .distinct
  | distinctOn exprs => .distinctOn exprs
  | window w => .window w
  | comment text => .comment text
  | hints texts => .hints texts

end CoreStep

/-- A call for the constraint of the last join. -/
inductive ConstraintStep where
  | on (predicate : Node)
  | usingColumns (names : List String)

namespace ConstraintStep

def clause : ConstraintStep → Clause
  | on _ => .on
  | usingColumns _ => .usingColumns

def call : ConstraintStep → SelectBuilder → Except Error SelectBuilder
  | on predicate => SelectBuilder.on predicate
  | usingColumns names => SelectBuilder.usingColumns names

end ConstraintStep

/-- A call for a clause of the whole select. -/
inductive WholeStep where
  | order (exprs : List Node)
  | take (n : Nat)
  | skip (n : Nat)
  | lock (l : Lock)
  | addCtes (isRecursive : Bool) (ctes : List (Cte Node))

def WholeStep.call : WholeStep → SelectBuilder → SelectBuilder
  | order exprs => .order exprs
  | take n => .take n
  | skip n => .skip n
  | lock l => .lock l
  | addCtes isRecursive ctes => .addCtes isRecursive ctes

inductive Step where
  | core (s : CoreStep)
  | constraint (s : ConstraintStep)
  | whole (s : WholeStep)

namespace Step

def call : Step → SelectBuilder → Except Error SelectBuilder
  | core s, b => .ok (s.call b)
  | constraint s, b => s.call b
  | whole s, b => .ok (s.call b)

/-- The builder after a call. -/
def after (s : Step) (b : SelectBuilder) : SelectBuilder := afterCall s.call b

/-- The clause of a block that the call is for. -/
def clause? : Step → Option Clause
  | core s => some s.clause
  | constraint _ | whole _ => none

end Step

/-! ### What a call does -/

open SelectBuilder

theorem CoreStep.exists_edit (s : CoreStep) : ∃ f, s.call = edit s.clause f := by
  cases s <;> exact ⟨_, rfl⟩

theorem ConstraintStep.exists_constrain (s : ConstraintStep) :
    ∃ f, s.call = constrain s.clause f := by
  cases s <;> exact ⟨_, rfl⟩

theorem WholeStep.exists_modify (s : WholeStep) : ∃ f, s.call = modify f := by
  cases s <;> exact ⟨_, rfl⟩

section
variable {b : SelectBuilder} (compound : b.isCompound = true)
include compound

/-- A call for a block changes nothing in a compound select; it is remembered if it is the first. -/
theorem CoreStep.call_of_compound (s : CoreStep) :
    s.call b = { b with fault? := b.fault?.or (some (.clauseOfCompound s.clause)) } := by
  obtain ⟨f, hf⟩ := s.exists_edit
  obtain ⟨_ | _, fault?⟩ := b
  · cases compound
  · rw [hf]
    rfl

/-- A compound select has no join to constrain. -/
theorem ConstraintStep.call_of_compound (s : ConstraintStep) :
    s.call b = .error (.clauseOfCompound s.clause) := by
  obtain ⟨f, hf⟩ := s.exists_constrain
  obtain ⟨_ | _, fault?⟩ := b
  · cases compound
  · rw [hf]
    rfl

theorem ConstraintStep.after_of_compound (s : ConstraintStep) :
    (Step.constraint s).after b = b :=
  afterCall_of_error (s.call_of_compound compound)

end

namespace Step

variable (s : Step)

/-- A call on a select with one block changes that block or what is around it. -/
theorem after_of_single (core : Core Node) (m : Modifiers Node) (fault? : Option Error) :
    ∃ core' m', s.after ⟨.single core m, fault?⟩ = ⟨.single core' m', fault?⟩ := by
  cases s with
  | core s =>
      obtain ⟨f, hf⟩ := s.exists_edit
      exact ⟨f core, m, by rw [after, afterCall, call, hf]; rfl⟩
  | constraint s =>
      obtain ⟨f, hf⟩ := s.exists_constrain
      simp only [after, afterCall, call, hf, constrain]
      cases f core.source with
      | ok source => exact ⟨{ core with source }, m, rfl⟩
      | error e => exact ⟨core, m, rfl⟩
  | whole s =>
      obtain ⟨f, hf⟩ := s.exists_modify
      exact ⟨core, f m, by rw [after, afterCall, call, hf]; rfl⟩

/-- A call on a compound select changes only what is around it, and is remembered if it is the first
one for a block. -/
theorem after_of_compound (op : SetOperator) (left right : Select Node) (m : Modifiers Node)
    (fault? : Option Error) :
    ∃ m', s.after ⟨.compound op left right m, fault?⟩ =
      ⟨.compound op left right m', fault?.or (s.clause?.map .clauseOfCompound)⟩ := by
  cases s with
  | core s => exact ⟨m, s.call_of_compound rfl⟩
  | constraint s =>
      refine ⟨m, ?_⟩
      rw [s.after_of_compound rfl, clause?, Option.map_none, Option.or_none]
  | whole s =>
      obtain ⟨f, hf⟩ := s.exists_modify
      refine ⟨f m, ?_⟩
      rw [after, afterCall, call, hf, clause?, Option.map_none, Option.or_none]
      rfl

variable (b : SelectBuilder)

theorem isCompound_after : (s.after b).isCompound = b.isCompound := by
  obtain ⟨⟨core, m⟩ | ⟨op, left, right, m⟩, fault?⟩ := b
  · obtain ⟨core', m', h⟩ := s.after_of_single core m fault?
    rw [h]
    rfl
  · obtain ⟨m', h⟩ := s.after_of_compound op left right m fault?
    rw [h]
    rfl

theorem fault?_after : (s.after b).fault? =
    b.fault?.or (if b.isCompound then s.clause?.map .clauseOfCompound else none) := by
  obtain ⟨⟨core, m⟩ | ⟨op, left, right, m⟩, fault?⟩ := b
  · obtain ⟨core', m', h⟩ := s.after_of_single core m fault?
    rw [h]
    exact Option.or_none.symm
  · obtain ⟨m', h⟩ := s.after_of_compound op left right m fault?
    rw [h]
    rfl

/-- A fault stays. -/
theorem fault?_after_of_fault {e : Error} (h : b.fault? = some e) :
    (s.after b).fault? = some e := by
  rw [fault?_after, h, Option.some_or]

end Step

end SqlTree
