import SqlTree.Builder.Mutation
import SqlTree.Proofs.Building.Step
import SqlTree.Proofs.Writing.Draft
import Mathlib.Data.List.Basic
import Mathlib.Data.List.Induction

/-!
# SqlTree — Proofs — calls about joins

A call adds a join at the end of a source, or a constraint to the join that stands last.  A select
with one block and the rows of an UPDATE or DELETE take these calls as calls on their source, and
the rest of the statement stays as it is (`SelectBuilder.run_joins`, `Rows.run_joins`).

* `Source.constraint_call`: what each call for a constraint gives.  It is refused where there is no
  join or the last one is raw; else the last join has another constraint, and nothing else changes.
* `Source.leads_run`: what a run of calls keeps.  The relation is the same, of the joins there were
  at most the last one has another constraint, and the joins called for come after them in order.
* `Node.conjoined_draft`: predicates that were added one after the other are written as one flat
  conjunction, however deep the tree of them is.
* `Source.joins_of_calls`: all of this in one statement.
-/

namespace SqlTree
open Draft

/-! ### Runs of calls that may fail -/

section Runs
variable {ι σ τ : Type}

/-- What calls leave that are made one after the other. -/
def runCalls (call : ι → σ → Except Error σ) (steps : List ι) (s : σ) : σ :=
  steps.foldl (fun s step => afterCall (call step) s) s

variable {call : ι → σ → Except Error σ}

theorem runCalls_cons_of_ok {step : ι} {s s' : σ} (h : call step s = .ok s') (steps : List ι) :
    runCalls call (step :: steps) s = runCalls call steps s' := by
  rw [runCalls, List.foldl_cons, afterCall_of_ok h, runCalls]

theorem runCalls_cons_of_error {step : ι} {s : σ} {e : Error} (h : call step s = .error e)
    (steps : List ι) : runCalls call (step :: steps) s = runCalls call steps s := by
  rw [runCalls, List.foldl_cons, afterCall_of_error h, runCalls]

/-- Calls that go through to one part of a whole run on that part. -/
theorem runCalls_whole {callWhole : ι → τ → Except Error τ} (whole : σ → τ)
    (through : ∀ step s, callWhole step (whole s) = (call step s).map whole) (steps : List ι)
    (s : σ) : runCalls callWhole steps (whole s) = whole (runCalls call steps s) := by
  induction steps generalizing s with
  | nil => rfl
  | cons step steps ih =>
      cases h : call step s with
      | ok s' =>
          have hwhole : callWhole step (whole s) = .ok (whole s') := by rw [through, h]; rfl
          rw [runCalls_cons_of_ok h, runCalls_cons_of_ok hwhole, ih]
      | error e =>
          have hwhole : callWhole step (whole s) = .error e := by rw [through, h]; rfl
          rw [runCalls_cons_of_error h, runCalls_cons_of_error hwhole, ih]

end Runs

/-! ### Calls about joins -/

namespace Join

/-- The join that a call for it adds: raw for SQL that the caller spells. -/
def asked (kind : JoinKind) (relation : Node) : Join Node :=
  match relation with
  | .of (.sql _) => ⟨.raw, relation, none⟩
  | .of _ => ⟨kind, relation, none⟩

/-- The join without its constraint. -/
def bare {α : Type} (j : Join α) : Join α := { j with constraint? := none }

theorem asked_sql (kind : JoinKind) (text : String) :
    asked kind (.sql text) = ⟨.raw, .sql text, none⟩ := rfl

theorem asked_cases (kind : JoinKind) (relation : Node) :
    asked kind relation = ⟨.raw, relation, none⟩ ∨ asked kind relation = ⟨kind, relation, none⟩ := by
  obtain ⟨form⟩ := relation
  cases form with
  | sql _ => exact .inl rfl
  | _ => exact .inr rfl

theorem bare_asked (kind : JoinKind) (relation : Node) :
    (asked kind relation).bare = asked kind relation := by
  obtain h | h := asked_cases kind relation <;> rw [h] <;> rfl

end Join

namespace ConstraintStep

/-- The constraint that a call puts in the place of the one there is. -/
def constraint : ConstraintStep → Option (JoinConstraint Node) → JoinConstraint Node
  | on predicate, some (.on earlier) => .on (earlier.and predicate)
  | on predicate, some (.columns _) | on predicate, none => .on predicate
  | usingColumns names, _ => .columns names

/-- The join with that constraint. -/
def constrained (c : ConstraintStep) (j : Join Node) : Join Node :=
  { j with constraint? := some (c.constraint j.constraint?) }

def callSource : ConstraintStep → Source Node → Except Error (Source Node)
  | on predicate => Source.on predicate
  | usingColumns names => Source.usingColumns names

theorem callSource_eq (c : ConstraintStep) : c.callSource = Source.constrain c.constraint := by
  cases c with
  | on predicate =>
      show Source.on predicate = _
      rw [Source.on]
      refine congrArg Source.constrain (funext fun constraint? => ?_)
      obtain _ | ⟨_ | _⟩ := constraint? <;> rfl
  | usingColumns names => rfl

end ConstraintStep

/-- A call about the joins of a source. -/
inductive JoinStep where
  | join (kind : JoinKind) (relation : Node)
  | constraint (c : ConstraintStep)

namespace JoinStep

def call : JoinStep → Source Node → Except Error (Source Node)
  | join kind relation, s => .ok (s.join kind relation)
  | constraint c, s => c.callSource s

/-- The call on a select. -/
def onSelect : JoinStep → Step
  | join kind relation => .core (.join kind relation)
  | constraint c => .constraint c

/-- The join that the call is for. -/
def asked? : JoinStep → Option (Join Node)
  | join kind relation => some (Join.asked kind relation)
  | constraint _ => none

def run (steps : List JoinStep) (s : Source Node) : Source Node := runCalls call steps s

/-- Calls for predicates on the last join. -/
def ons (predicates : List Node) : List JoinStep := predicates.map fun p => constraint (.on p)

end JoinStep

/-- A call about the joins of an UPDATE or DELETE. -/
inductive RowsStep where
  | join (kind : JoinKind) (relation : Node)
  | on (predicate : Node)

namespace RowsStep

def call : RowsStep → Rows Node → Except Error (Rows Node)
  | join kind relation, r => .ok (r.join kind relation)
  | on predicate, r => r.on predicate

/-- The call on the source of the rows. -/
def onSource : RowsStep → JoinStep
  | join kind relation => .join kind relation
  | on predicate => .constraint (.on predicate)

end RowsStep

/-! ### Calls on a statement are calls on its source -/

theorem SelectBuilder.call_joins (step : JoinStep) (core : Core Node) (m : Modifiers Node)
    (fault? : Option Error) (s : Source Node) :
    step.onSelect.call ⟨.single { core with source := s } m, fault?⟩ =
      (step.call s).map fun source => ⟨.single { core with source } m, fault?⟩ := by
  cases step with
  | join kind relation => rfl
  | constraint c =>
      cases c with
      | on predicate =>
          show (Source.on predicate s >>= _) = Except.map _ (Source.on predicate s)
          cases Source.on predicate s <;> rfl
      | usingColumns names =>
          show (Source.usingColumns names s >>= _) = Except.map _ (Source.usingColumns names s)
          cases Source.usingColumns names s <;> rfl

theorem SelectBuilder.run_joins (steps : List JoinStep) (core : Core Node) (m : Modifiers Node)
    (fault? : Option Error) (s : Source Node) :
    runCalls (fun step => step.onSelect.call) steps
        ⟨.single { core with source := s } m, fault?⟩ =
      ⟨.single { core with source := JoinStep.run steps s } m, fault?⟩ :=
  runCalls_whole (fun source => SelectBuilder.mk (.single { core with source } m) fault?)
    (fun step s => call_joins step core m fault? s) steps s

theorem Rows.call_joins (step : RowsStep) (r : Rows Node) (s : Source Node) :
    step.call { r with source := s } =
      (step.onSource.call s).map fun source => { r with source } := by
  cases step with
  | join kind relation => rfl
  | on predicate =>
      show (Source.on predicate s >>= _) = Except.map _ (Source.on predicate s)
      cases Source.on predicate s <;> rfl

theorem Rows.run_joins (steps : List RowsStep) (r : Rows Node) (s : Source Node) :
    runCalls RowsStep.call steps { r with source := s } =
      { r with source := JoinStep.run (steps.map RowsStep.onSource) s } := by
  have h := runCalls_whole (fun source => { r with source })
    (fun step s => call_joins step r s) steps s
  rw [h, JoinStep.run, runCalls, runCalls, List.foldl_map]

/-! ### One call on a source -/

namespace Source

theorem join_call (kind : JoinKind) (relation : Node) (s : Source Node) :
    (JoinStep.join kind relation).call s =
      .ok { s with joins := s.joins ++ [Join.asked kind relation] } := by
  obtain ⟨form⟩ := relation
  cases form <;> rfl

theorem constraint_call_of_nil (c : ConstraintStep) {s : Source Node} (none : s.joins = []) :
    (JoinStep.constraint c).call s = .error .constraintWithoutJoin := by
  show c.callSource s = _
  rw [c.callSource_eq, constrain, none]
  rfl

/-- **A call for a constraint.**  A raw join takes none; any other join, if it is the last one, gets
it, and the relation and the other joins stay. -/
theorem constraint_call (c : ConstraintStep) {s : Source Node} {earlier : List (Join Node)}
    {last : Join Node} (h : s.joins = earlier ++ [last]) :
    (JoinStep.constraint c).call s =
      if last.kind = .raw then .error .constraintOnRawJoin
      else .ok { s with joins := earlier ++ [c.constrained last] } := by
  show c.callSource s = _
  rw [c.callSource_eq, constrain, h, List.getLast?_concat, List.dropLast_concat]
  rfl

/-! ### Runs on a source -/

/-- Calls have made a source of another: its relation is the same, of the joins there were at most
the last one has another constraint, and behind them are those that were called for. -/
structure Leads (s : Source Node) (asked : List (Join Node)) (s' : Source Node) : Prop where
  relation? : s'.relation? = s.relation?
  earlier : s.joins.dropLast <+: s'.joins.dropLast
  bare : s'.joins.map Join.bare = s.joins.map Join.bare ++ asked

namespace Leads

theorem refl (s : Source Node) : s.Leads [] s :=
  ⟨rfl, List.prefix_rfl, (List.append_nil _).symm⟩

theorem trans {s t u : Source Node} {asked more : List (Join Node)} (h : s.Leads asked t)
    (h' : t.Leads more u) : s.Leads (asked ++ more) u where
  relation? := h'.relation?.trans h.relation?
  earlier := h.earlier.trans h'.earlier
  bare := by rw [h'.bare, h.bare, List.append_assoc]

theorem join (kind : JoinKind) (relation : Node) (s : Source Node) :
    s.Leads [Join.asked kind relation]
      { s with joins := s.joins ++ [Join.asked kind relation] } where
  relation? := rfl
  earlier := by
    rw [List.dropLast_concat]
    exact s.joins.dropLast_prefix
  bare := by rw [List.map_append, List.map_singleton, Join.bare_asked]

theorem constraint (c : ConstraintStep) {s : Source Node} {earlier : List (Join Node)}
    {last : Join Node} (h : s.joins = earlier ++ [last]) :
    s.Leads [] { s with joins := earlier ++ [c.constrained last] } where
  relation? := rfl
  earlier := by
    have same : s.joins.dropLast = (earlier ++ [c.constrained last]).dropLast := by
      rw [h, List.dropLast_concat, List.dropLast_concat]
    exact same ▸ List.prefix_rfl
  bare := by
    have same : (c.constrained last).bare = last.bare := rfl
    rw [h, List.map_append, List.map_append, List.map_singleton, List.map_singleton, same,
      List.append_nil]

end Leads

/-- A call that is refused changes nothing; any other one leads on. -/
theorem leads_call (step : JoinStep) (s : Source Node) :
    match step.call s with
    | .ok s' => s.Leads step.asked?.toList s'
    | .error _ => step.asked? = none := by
  cases step with
  | join kind relation =>
      rw [join_call]
      exact .join kind relation s
  | constraint c =>
      obtain none | ⟨earlier, last, h⟩ := s.joins.eq_nil_or_concat'
      · rw [constraint_call_of_nil c none]
        rfl
      · rw [constraint_call c h]
        by_cases raw : last.kind = .raw
        · rw [if_pos raw]
          rfl
        · rw [if_neg raw]
          exact .constraint c h

/-- **What a run of calls keeps.** -/
theorem leads_run (steps : List JoinStep) (s : Source Node) :
    s.Leads (steps.filterMap JoinStep.asked?) (JoinStep.run steps s) := by
  induction steps generalizing s with
  | nil => exact .refl s
  | cons step steps ih =>
      have h := leads_call step s
      rw [← List.singleton_append, List.filterMap_append, List.singleton_append, JoinStep.run]
      cases called : step.call s with
      | ok s' =>
          rw [called] at h
          rw [runCalls_cons_of_ok called]
          have first : [step].filterMap JoinStep.asked? = step.asked?.toList := by
            cases hasked : step.asked? <;> simp [hasked]
          rw [first]
          exact h.trans (ih s')
      | error e =>
          rw [called] at h
          rw [runCalls_cons_of_error called, List.filterMap_cons_none h]
          exact ih s

end Source

/-! ### Predicates added one after the other -/

namespace Node

/-- The conjunction that calls for predicates leave on a join. -/
def conjoined (first : Node) (later : List Node) : Node := later.foldl Node.and first

variable (d : Dialect)

/-- A conjunct, in parentheses exactly if it binds looser than AND. -/
def conjunct (p : Node) : Draft :=
  if p.strength < Strength.conjunction then (p.draft d .item).parens else p.draft d .item

theorem conjunct_and (p q : Node) :
    (p.and q).conjunct d = p.conjunct d ++ fixed " AND " ++ q.conjunct d := by
  show (of (.and [p, q])).draft d .item = _
  rw [draft_item]
  rfl

/-- **Predicates added one after the other** are written as one flat conjunction. -/
theorem conjoined_draft (first : Node) (later : List Node) :
    (first.conjoined later).conjunct d =
      sepBy " AND " ((first :: later).map (conjunct d)) := by
  induction later using List.reverseRecOn with
  | nil => rfl
  | append_singleton later last ih =>
      have grown : first.conjoined (later ++ [last]) = (first.conjoined later).and last :=
        List.foldl_append
      rw [grown, conjunct_and, ih, ← List.cons_append, List.map_append, List.map_singleton,
        sepBy_append " AND " (by simp) (by simp)]
      rfl

/-- More than one predicate leaves a conjunction, which needs no parentheses itself. -/
theorem conjoined_draft_item (first second : Node) (later : List Node) :
    (first.conjoined (second :: later)).draft d .item =
      sepBy " AND " ((first :: second :: later).map (conjunct d)) := by
  have bare : (first.conjoined (second :: later)).strength = Strength.conjunction := by
    induction later using List.reverseRecOn with
    | nil => rfl
    | append_singleton later last _ =>
        have grown : first.conjoined (second :: (later ++ [last])) =
            (first.conjoined (second :: later)).and last := by
          rw [← List.cons_append]
          exact List.foldl_append
        rw [grown]
        rfl
  rw [← conjoined_draft, conjunct, bare, if_neg (Nat.lt_irrefl _)]

end Node

/-- What is written for the predicates on a join: one as it stands, more of them as a conjunction. -/
def onDraft (d : Dialect) : List Node → Draft
  | [] => nothing
  | [p] => fixed " ON " ++ p.draft d .item
  | ps => fixed " ON " ++ sepBy " AND " (ps.map (Node.conjunct d))

namespace Source

/-- Calls for predicates on a join that has one. -/
theorem run_ons_of_on (later : List Node) {s : Source Node} {earlier : List (Join Node)}
    {kind : JoinKind} {relation first : Node} (structured : kind ≠ .raw)
    (h : s.joins = earlier ++ [⟨kind, relation, some (.on first)⟩]) :
    JoinStep.run (JoinStep.ons later) s =
      { s with joins := earlier ++ [⟨kind, relation, some (.on (first.conjoined later))⟩] } := by
  induction later generalizing s first with
  | nil =>
      obtain ⟨relation?, joins⟩ := s
      exact congrArg (Source.mk relation?) h
  | cons p later ih =>
      have called := constraint_call (.on p) h
      rw [if_neg structured] at called
      rw [JoinStep.ons, List.map_cons, JoinStep.run, runCalls_cons_of_ok called]
      exact ih rfl

/-- **Calls for predicates on a join without a constraint.**  What is written behind its relation is
the conjunction of the predicates, in the order of the calls. -/
theorem run_ons {s : Source Node} {earlier : List (Join Node)} {kind : JoinKind} {relation : Node}
    (structured : kind ≠ .raw) (h : s.joins = earlier ++ [⟨kind, relation, none⟩])
    (ps : List Node) :
    ∃ constraint?,
      JoinStep.run (JoinStep.ons ps) s =
        { s with joins := earlier ++ [⟨kind, relation, constraint?⟩] } ∧
      ∀ d, ((⟨kind, relation, constraint?⟩ : Join Node).map (Node.part d)).draft d =
        ofWord (d.joinText kind) ++ fixed " " ++ relation.draft d .item ++ onDraft d ps := by
  have written (constraint? : Option (JoinConstraint Node)) (d : Dialect) :
      ((⟨kind, relation, constraint?⟩ : Join Node).map (Node.part d)).draft d =
        ofWord (d.joinText kind) ++ fixed " " ++ relation.draft d .item ++
          ((constraint?.map (·.map (Node.part d))).map JoinConstraint.draft).getD nothing := by
    cases kind with
    | raw => exact absurd rfl structured
    | _ => rfl
  obtain _ | ⟨first, later⟩ := ps
  · obtain ⟨relation?, joins⟩ := s
    exact ⟨none, congrArg (Source.mk relation?) h, written none⟩
  · have called := constraint_call (.on first) h
    rw [if_neg structured] at called
    refine ⟨some (.on (first.conjoined later)), ?_, fun d => ?_⟩
    · rw [JoinStep.ons, List.map_cons, JoinStep.run, runCalls_cons_of_ok called]
      exact run_ons_of_on later structured rfl
    · rw [written]
      obtain _ | ⟨second, later⟩ := later
      · rfl
      · show _ ++ (fixed " ON " ++ (first.conjoined (second :: later)).draft d .item) = _
        rw [Node.conjoined_draft_item]
        rfl

/-- **Calls about joins**, on a source in any state.

On a select with one block and on the rows of an UPDATE or DELETE, any calls come to what they come
to on the source, and the next call is refused there if it is refused on the source; the rest of the
statement stays.  On the source, a constraint is refused where there is no join or the last one is
raw, and else changes the constraint of the last join only; a call for a join adds it at the end,
and SQL that the caller spells is a raw join whatever kind is asked for; no calls change the
relation, a join before the last one or the order of joins; and the predicates on a structured join
are written as one conjunction in the order of the calls, each in parentheses exactly if it binds
looser than AND. -/
theorem joins_of_calls (s : Source Node) :
    (∀ (core : Core Node) (m : Modifiers Node) (fault? : Option Error) (steps : List JoinStep)
        (next : JoinStep),
      let b := runCalls (fun step => step.onSelect.call) steps
        ⟨.single { core with source := s } m, fault?⟩
      let now := JoinStep.run steps s
      b = ⟨.single { core with source := now } m, fault?⟩ ∧
        next.onSelect.call b =
          (next.call now).map fun source => ⟨.single { core with source } m, fault?⟩) ∧
    (∀ (r : Rows Node) (steps : List RowsStep) (next : RowsStep),
      let r' := runCalls RowsStep.call steps { r with source := s }
      let now := JoinStep.run (steps.map RowsStep.onSource) s
      r' = { r with source := now } ∧
        next.call r' = (next.onSource.call now).map fun source => { r with source }) ∧
    (∀ c : ConstraintStep,
      (s.joins = [] → (JoinStep.constraint c).call s = .error .constraintWithoutJoin) ∧
      ∀ earlier last, s.joins = earlier ++ [last] →
        (JoinStep.constraint c).call s =
          if last.kind = .raw then .error .constraintOnRawJoin
          else .ok { s with joins := earlier ++ [c.constrained last] }) ∧
    (∀ (kind : JoinKind) (relation : Node),
      (JoinStep.join kind relation).call s =
        .ok { s with joins := s.joins ++ [Join.asked kind relation] }) ∧
    (∀ (kind : JoinKind) (text : String), Join.asked kind (.sql text) = ⟨.raw, .sql text, none⟩) ∧
    (∀ steps : List JoinStep,
      s.Leads (steps.filterMap JoinStep.asked?) (JoinStep.run steps s)) ∧
    ∀ earlier kind relation, s.joins = earlier ++ [⟨kind, relation, none⟩] → kind ≠ .raw →
      ∀ ps, ∃ constraint?,
        JoinStep.run (JoinStep.ons ps) s =
          { s with joins := earlier ++ [⟨kind, relation, constraint?⟩] } ∧
        ∀ d, ((⟨kind, relation, constraint?⟩ : Join Node).map (Node.part d)).draft d =
          ofWord (d.joinText kind) ++ fixed " " ++ relation.draft d .item ++ onDraft d ps := by
  refine ⟨?select, ?rows, ?constraint, ?join, Join.asked_sql, fun steps => leads_run steps s, ?ons⟩
  case select =>
    intro core m fault? steps next b now
    have hb : b = ⟨.single { core with source := now } m, fault?⟩ :=
      SelectBuilder.run_joins steps core m fault? s
    exact ⟨hb, hb ▸ SelectBuilder.call_joins next core m fault? now⟩
  case rows =>
    intro r steps next r' now
    have hr : r' = { r with source := now } := Rows.run_joins steps r s
    exact ⟨hr, hr ▸ Rows.call_joins next r now⟩
  case constraint =>
    intro c
    exact ⟨constraint_call_of_nil c, fun _ _ h => constraint_call c h⟩
  case join =>
    intro kind relation
    exact join_call kind relation s
  case ons =>
    intro earlier kind relation h structured ps
    exact run_ons structured h ps

/-- A disjunction and a truth value on a join that stands behind a raw one. -/
theorem joins_of_calls_on_join :
    let posts : Node := .of (.table { name := "posts" })
    let either : Node := .binary .or (.of (.bool true)) (.of (.bool false))
    let never : Node := .of (.bool false)
    let raw : Join Node := ⟨.raw, .sql "NATURAL JOIN tags", none⟩
    let s : Source Node := ⟨none, [raw, ⟨.inner, posts, none⟩]⟩
    s.joins = [raw] ++ [⟨.inner, posts, none⟩] ∧ JoinKind.inner ≠ .raw ∧
    ∃ constraint?,
      JoinStep.run (JoinStep.ons [either, never]) s =
        { s with joins := [raw] ++ [⟨.inner, posts, constraint?⟩] } ∧
      ((⟨.inner, posts, constraint?⟩ : Join Node).map (Node.part .generic)).draft .generic =
        fixed "INNER JOIN" ++ fixed " " ++ ident "posts" ++
          (fixed " ON " ++ ((fixed "TRUE" ++ fixed " OR " ++ fixed "FALSE").parens ++
            fixed " AND " ++ fixed "FALSE")) := by
  intro posts either never raw s
  have structured : JoinKind.inner ≠ .raw := by decide
  obtain ⟨-, -, -, -, -, -, ons⟩ := joins_of_calls s
  obtain ⟨constraint?, run, written⟩ := ons [raw] .inner posts rfl structured [either, never]
  exact ⟨rfl, structured, constraint?, run, written .generic⟩

end Source

end SqlTree
