import SqlTree.Proofs.Tree.Projections
import SqlTree.Proofs.Writing.Uniform.Expression

/-!
# SqlTree — Proofs — a select is written uniformly

What holds of expressions (`Uniform/Expression.lean`) holds of sources, blocks and whole selects.
The items of SELECT lists have to be related as they are written there, with their implicit names;
of the other parts it is enough that they are similar.  What a select is refused for does not depend
on its parts, so that the relation has to hold between each refusal and itself.
-/

namespace SqlTree
open Draft

variable {S : Draft → Draft → Prop} {γ : Type} {u v : γ → Part}

section
variable (hS : Congruence S)
include hS

/-! ### What a select reads from -/

theorem JoinConstraint.draft_uniform (c : JoinConstraint γ)
    (h : ∀ x ∈ c.parts, Part.Similar S (u x) (v x)) : S (c.map u).draft (c.map v).draft := by
  cases c with
  | on x => exact hS.append (hS.word rfl) (h x (by simp [JoinConstraint.parts])).item
  | columns names =>
      exact hS.append (hS.word rfl) (hS.parens (hS.sepBy rfl (forall₂_map fun _ _ => hS.ident _)))

theorem ofWord_uniform (word : Except Error String)
    (wording : ∀ text, word = .ok text → isWording text.toList = true)
    (refused : ∀ e ∈ wordRefusals word, S (fail e) (fail e)) : S (ofWord word) (ofWord word) := by
  cases word with
  | ok text => exact hS.fixed text (wording text rfl)
  | error e => exact refused e (List.mem_singleton_self e)

theorem Join.draft_uniform (d : Dialect) (j : Join γ)
    (h : ∀ x ∈ j.parts, Part.Similar S (u x) (v x))
    (refused : ∀ e ∈ j.refusals d, S (fail e) (fail e)) :
    S ((j.map u).draft d) ((j.map v).draft d) := by
  obtain ⟨kind, relation, constraint?⟩ := j
  have relation_item := (h relation (by simp [Join.parts])).item
  have constrained : S (((constraint?.map (·.map u)).map JoinConstraint.draft).getD nothing)
      (((constraint?.map (·.map v)).map JoinConstraint.draft).getD nothing) := by
    cases constraint? with
    | none => exact hS.nothing
    | some c => exact c.draft_uniform hS fun x hx => h x (by simp [Join.parts, hx])
  have structured (hword : ∀ e ∈ wordRefusals (d.joinText kind), S (fail e) (fail e)) :=
    have word := ofWord_uniform hS _ (fun _ => isWording_joinText d) hword
    hS.append (hS.append (hS.append word (hS.fixed " " (isWording_ofList rfl))) relation_item)
      constrained
  cases kind with
  | raw => exact relation_item
  | _ => exact structured refused

theorem Source.draft_uniform (d : Dialect) (s : Source γ)
    (h : ∀ x ∈ s.parts, Part.Similar S (u x) (v x))
    (refused : ∀ e ∈ s.refusals d, S (fail e) (fail e)) :
    S ((s.map u).draft d) ((s.map v).draft d) := by
  obtain ⟨relation?, joins⟩ := s
  refine hS.sepBy rfl (List.rel_append ?_ ?_)
  · cases relation? with
    | none => exact .nil
    | some x => exact .cons (h x (by simp [Source.parts])).item .nil
  · simp only [Source.map, List.map_map]
    refine forall₂_map fun j hj => j.draft_uniform hS d (fun x hx => h x ?_) fun e he => ?_
    · exact List.mem_append_right _ (List.mem_flatMap.mpr ⟨j, hj, hx⟩)
    · exact refused e (List.mem_flatMap.mpr ⟨j, hj, he⟩)

theorem hintsDraft_uniform (hints : List String) : S (hintsDraft hints) (hintsDraft hints) := by
  cases hints with
  | nil => exact hS.nothing
  | cons hint hints =>
      refine hS.append (hS.word rfl)
        (hS.remark _ (Comment.hasMark_intercalate fun text htext => ?_))
      obtain ⟨hint, -, rfl⟩ := List.mem_map.mp htext
      exact Comment.hasMark_clean hint

theorem SetQuantifier.draft_uniform (d : Dialect) (q : SetQuantifier γ)
    (h : ∀ x ∈ q.parts, Part.Similar S (u x) (v x))
    (refused : ∀ e ∈ q.refusals d, S (fail e) (fail e)) :
    S ((q.map u).draft d) ((q.map v).draft d) := by
  cases q with
  | all | distinct => exact hS.word rfl
  | distinctOn exprs =>
      cases d with
      | postgresql => exact hS.append (hS.word rfl) (hS.parens (Part.list_uniform hS h))
      | _ => exact refused _ (List.mem_singleton_self _)

theorem projectionsDraft_uniform (xs : List γ)
    (h : ∀ x ∈ xs, S (u x).projection (v x).projection) :
    S (projectionsDraft (xs.map u)) (projectionsDraft (xs.map v)) := by
  cases xs with
  | nil => exact hS.word rfl
  | cons x xs =>
      show S (sepBy ", " (((x :: xs).map u).map Part.projection))
        (sepBy ", " (((x :: xs).map v).map Part.projection))
      simp only [List.map_map]
      exact hS.sepBy rfl (forall₂_map h)

theorem fromDraft_uniform (d : Dialect) (s : Source γ)
    (h : ∀ x ∈ s.parts, Part.Similar S (u x) (v x))
    (refused : ∀ e ∈ s.refusals d, S (fail e) (fail e))
    (gap : s.isEmpty = false → s.relation?.isNone → S (fail (.incomplete .selectRelation))
      (fail (.incomplete .selectRelation))) :
    S (fromDraft d (s.map u)) (fromDraft d (s.map v)) := by
  have source := s.draft_uniform hS d h refused
  -- joins without a relation are refused
  rcases s with ⟨_ | relation, _ | ⟨j, joins⟩⟩
  · exact hS.nothing
  · exact gap rfl rfl
  · exact hS.append (hS.word rfl) source
  · exact hS.append (hS.word rfl) source

theorem Core.draft_uniform (d : Dialect) (c : Core γ)
    (shown : ∀ x ∈ c.projections, S (u x).projection (v x).projection)
    (h : ∀ x ∈ c.elsewhere, Part.Similar S (u x) (v x))
    (refused : ∀ e ∈ c.refusals d, S (fail e) (fail e)) :
    S ((c.map u).draft d) ((c.map v).draft d) := by
  obtain ⟨projections, filters, groups, havings, source, quantifier?, windows, comments, hints⟩ := c
  have quantified : S
      (((quantifier?.map (·.map u)).map (SetQuantifier.draft d)).getD nothing)
      (((quantifier?.map (·.map v)).map (SetQuantifier.draft d)).getD nothing) := by
    cases quantifier? with
    | none => exact hS.nothing
    | some q =>
        exact q.draft_uniform hS d (fun x hx => h x (by simp [Core.elsewhere, hx]))
          fun e he => refused e (by simp [Core.refusals, he])
  have projected := projectionsDraft_uniform hS projections shown
  have read := fromDraft_uniform hS (u := u) (v := v) d source
    (fun x hx => h x (by simp [Core.elsewhere, hx]))
    (fun e he => refused e (by simp [Core.refusals, he]))
    fun h₁ h₂ => refused _ (by simp [Core.refusals, h₁, h₂])
  have filtered : S (clause " WHERE " " AND " (Part.conjuncts (filters.map u)))
      (clause " WHERE " " AND " (Part.conjuncts (filters.map v))) :=
    Part.conjuncts_uniform hS rfl filters fun x hx => h x (by simp [Core.elsewhere, hx])
  have grouped : S (clause " GROUP BY " ", " ((groups.map u).map Part.item))
      (clause " GROUP BY " ", " ((groups.map v).map Part.item)) := by
    simp only [List.map_map]
    exact hS.clause rfl rfl (forall₂_map fun x hx =>
      (h x (by simp [Core.elsewhere, hx])).item)
  have had : S (clause " HAVING " " AND " (Part.conjuncts (havings.map u)))
      (clause " HAVING " " AND " (Part.conjuncts (havings.map v))) :=
    Part.conjuncts_uniform hS rfl havings fun x hx => h x (by simp [Core.elsewhere, hx])
  have windowed : S (clause " WINDOW " ", " ((windows.map (·.map u)).map NamedWindow.draft))
      (clause " WINDOW " ", " ((windows.map (·.map v)).map NamedWindow.draft)) := by
    simp only [List.map_map]
    exact hS.clause rfl rfl (forall₂_map fun w hw => w.draft_uniform hS fun x hx =>
      h x (List.mem_append_right _ (List.mem_flatMap.mpr ⟨w, hw, hx⟩)))
  have remarked : S
      (inOrder (comments.map fun text => fixed " " ++ remark false (Comment.clean text)))
      (inOrder (comments.map fun text => fixed " " ++ remark false (Comment.clean text))) :=
    hS.inOrder (forall₂_map fun text _ =>
      hS.append (hS.word rfl) (hS.remark _ (Comment.hasMark_clean text)))
  exact hS.append (hS.append (hS.append (hS.append (hS.append (hS.append (hS.append (hS.append
    (hS.append (hS.append (hS.word rfl) (hintsDraft_uniform hS hints)) quantified) (hS.word rfl))
    projected) read) filtered) grouped) had) windowed) remarked

theorem Cte.draft_uniform (c : Cte γ) (h : Part.Similar S (u c.relation) (v c.relation)) :
    S (c.map u).draft (c.map v).draft := by
  obtain ⟨name, relation, materialized?⟩ := c
  refine hS.append (hS.append (hS.append (hS.ident _) (hS.word rfl)) ?_) (h.operand hS _)
  rcases materialized? with _ | _ | _
  · exact hS.nothing
  · exact hS.word rfl
  · exact hS.word rfl

theorem ordersDraft_uniform (xs : List γ) (h : ∀ x ∈ xs, Part.Similar S (u x) (v x)) :
    S (ordersDraft (xs.map u)) (ordersDraft (xs.map v)) := by
  simp only [ordersDraft, List.map_map]
  exact hS.clause rfl rfl (forall₂_map fun x hx => (h x hx).item)

theorem limitDraft_uniform (d : Dialect) (limit? offset? : Option γ)
    (hl : ∀ x ∈ limit?, Part.Similar S (u x) (v x))
    (ho : ∀ x ∈ offset?, Part.Similar S (u x) (v x)) :
    S (limitDraft d (limit?.map u) (offset?.map u))
      (limitDraft d (limit?.map v) (offset?.map v)) := by
  refine hS.append ?_ (optional_uniform hS rfl ho)
  cases limit? with
  | some x => exact hS.append (hS.word rfl) (hl x rfl).item
  | none =>
      cases offset? with
      | none => exact hS.nothing
      | some y =>
          cases d with
          | mysql => exact hS.fixed " LIMIT 18446744073709551615" (isWording_ofList rfl)
          | sqlite => exact hS.fixed " LIMIT -1" (isWording_ofList rfl)
          | generic | postgresql => exact hS.nothing

theorem Lock.draft_uniform (d : Dialect) (l : Lock) (raws : ∀ text ∈ l.raws, Spellable S text) :
    S (l.draft d) (l.draft d) := by
  cases d with
  | sqlite => exact hS.nothing
  | _ =>
      cases l with
      | forUpdate => exact hS.word rfl
      | raw text => exact hS.append (hS.word rfl) (raws text (List.mem_singleton_self text)).asGiven

theorem Modifiers.around_uniform (d : Dialect) (m : Modifiers γ)
    (hb : ∀ x ∈ m.before, Part.Similar S (u x) (v x))
    (ha : ∀ x ∈ m.after, Part.Similar S (u x) (v x))
    (raws : ∀ text ∈ m.raws, Spellable S text) {a b : Draft} (hab : S a b) :
    S ((m.map u).around d a) ((m.map v).around d b) := by
  obtain ⟨with?, orders, limit?, offset?, lock?⟩ := m
  have ctes : S (((with?.map (·.map u)).map With.draft).getD nothing)
      (((with?.map (·.map v)).map With.draft).getD nothing) := by
    rcases with? with _ | ⟨isRecursive, ctes⟩
    · exact hS.nothing
    · refine hS.append (hS.append ?_ ?_) (hS.word rfl)
      · cases isRecursive with
        | true => exact hS.word rfl
        | false => exact hS.word rfl
      · simp only [With.map, List.map_map]
        exact hS.sepBy rfl (forall₂_map fun c hc => c.draft_uniform hS
          (hb _ (List.mem_map.mpr ⟨c, hc, rfl⟩)))
  have ordered := ordersDraft_uniform hS (u := u) (v := v) orders fun x hx =>
    ha x (by simp [Modifiers.after, hx])
  have limited := limitDraft_uniform hS (u := u) (v := v) d limit? offset?
    (fun x hx => ha x (by simp [Modifiers.after, Option.mem_def.mp hx]))
    fun x hx => ha x (by simp [Modifiers.after, Option.mem_def.mp hx])
  have locked := hS.option lock? fun l hl => l.draft_uniform hS d fun text htext =>
    raws text (by simpa [Modifiers.raws, Option.mem_def.mp hl] using htext)
  exact hS.append (hS.append (hS.append (hS.append ctes hab) ordered) limited) locked

theorem operandDraft_uniform (d : Dialect) (op : SetOperator) (isLeft : Bool) (s : Select γ)
    {a b : Draft} (hab : S a b) (refused : ∀ e ∈ s.operandRefusals d isLeft, S (fail e) (fail e)) :
    S (operandDraft d op isLeft (s.map u) a) (operandDraft d op isLeft (s.map v) b) := by
  have chained : (s.map u).chains op isLeft = (s.map v).chains op isLeft := by
    cases s <;> simp [Select.map, Select.chains, Modifiers.isEmpty_map]
  cases d with
  | sqlite =>
      simp only [operandDraft, Select.isModified_map, Select.isNone_core?_map]
      simp only [Select.operandRefusals] at refused
      split_ifs at refused ⊢ with modified nested
      · exact refused _ (List.mem_singleton_self _)
      · exact refused _ (List.mem_singleton_self _)
      · exact hab
  | _ =>
      simp only [operandDraft, chained]
      split
      · exact hab
      · exact hS.parens hab

theorem Select.draft_uniform (d : Dialect) :
    ∀ s : Select γ, (∀ x ∈ s.projections, S (u x).projection (v x).projection) →
      (∀ x ∈ s.elsewhere, Part.Similar S (u x) (v x)) →
        (∀ e ∈ s.refusals d, S (fail e) (fail e)) → (∀ text ∈ s.raws, Spellable S text) →
          S ((s.map u).draft d) ((s.map v).draft d)
  | .single core m, shown, h, refused, raws => by
      exact m.around_uniform hS d (fun x hx => h x (by simp [Select.elsewhere, hx]))
        (fun x hx => h x (by simp [Select.elsewhere, hx])) raws
        (core.draft_uniform hS d shown (fun x hx => h x (by simp [Select.elsewhere, hx])) refused)
  | .compound op left right m, shown, h, refused, raws => by
      have hl := left.draft_uniform d (fun x hx => shown x (by simp [Select.projections, hx]))
        (fun x hx => h x (by simp [Select.elsewhere, hx]))
        (fun e he => refused e (by simp [Select.refusals, he]))
        fun text ht => raws text (by simp [Select.raws, ht])
      have hr := right.draft_uniform d (fun x hx => shown x (by simp [Select.projections, hx]))
        (fun x hx => h x (by simp [Select.elsewhere, hx]))
        (fun e he => refused e (by simp [Select.refusals, he]))
        fun text ht => raws text (by simp [Select.raws, ht])
      have left_operand := operandDraft_uniform hS (u := u) (v := v) d op true left hl
        fun e he => refused e (by simp [Select.refusals, he])
      have right_operand := operandDraft_uniform hS (u := u) (v := v) d op false right hr
        fun e he => refused e (by simp [Select.refusals, he])
      have operator := hS.fixed _ (isWording_spaced (isWording_setOperator op))
      exact m.around_uniform hS d (fun x hx => h x (by simp [Select.elsewhere, hx]))
        (fun x hx => h x (by simp [Select.elsewhere, hx]))
        (fun text ht => raws text (by simp [Select.raws, ht]))
        (hS.append (hS.append left_operand operator) right_operand)

end

end SqlTree
