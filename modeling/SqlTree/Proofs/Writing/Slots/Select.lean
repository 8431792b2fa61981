import SqlTree.Proofs.Writing.Slots.Expression

/-!
# SqlTree — Proofs — the slots of selects

The parts of a select that are written are all but the constraint of a raw join, which is all in its
relation.  They are written in the same order everywhere: what stands before the body, the body with
its operands from left to right, and what stands behind it.

* `Select.draft_writes`: a select has the slots of its written parts, one after the other.
-/

namespace SqlTree
open Draft

/-! ### Written parts -/

section
variable {α : Type}

/-- A raw join is all in its relation. -/
def Join.written (j : Join α) : List α :=
  match j.kind with
  | .raw => [j.relation]
  | _ => j.parts

def Source.written (s : Source α) : List α := s.relation?.toList ++ s.joins.flatMap Join.written

def Core.written (c : Core α) : List α :=
  (c.quantifier?.map SetQuantifier.parts).getD [] ++ c.projections ++ c.source.written ++
    c.filters ++ c.groups ++ c.havings ++ c.windows.flatMap (·.window.parts)

def Select.written : Select α → List α
  | single core m => m.before ++ core.written ++ m.after
  | compound _ left right m => m.before ++ (left.written ++ right.written) ++ m.after

end

section
variable {α β : Type} (f : α → β)

@[simp] theorem Join.written_map (j : Join α) : (j.map f).written = j.written.map f := by
  obtain ⟨kind, relation, constraint?⟩ := j
  cases kind with
  | raw => rfl
  | _ => exact Join.parts_map f _

@[simp] theorem Source.written_map (s : Source α) : (s.map f).written = s.written.map f := by
  simp [Source.map, Source.written, Option.toList_map, List.flatMap_map, List.map_flatMap]

@[simp] theorem Core.written_map (c : Core α) : (c.map f).written = c.written.map f := by
  have source : (c.map f).source.written = c.source.written.map f := c.source.written_map f
  rw [Core.written, source]
  cases hq : c.quantifier? <;>
    simp [Core.written, Core.map, NamedWindow.map, List.flatMap_map, List.map_flatMap, hq]

@[simp] theorem Select.written_map : ∀ s : Select α, (s.map f).written = s.written.map f
  | .single _ _ => by simp [Select.map, Select.written]
  | .compound _ left right _ => by
      simp [Select.map, Select.written, Select.written_map left, Select.written_map right]

end

section
variable {γ : Type} {u : γ → Part} {t : γ → List Bind}

/-! ### Selects -/

theorem JoinConstraint.draft_writes (c : JoinConstraint γ)
    (h : ∀ x ∈ c.parts, (u x).Writes (t x)) :
    (c.map u).draft.Writes (c.parts.flatMap t) := by
  cases c with
  | on x =>
      exact Draft.Writes.one (.before (.fixed _) (h x (List.mem_singleton_self x)).item)
  | columns names =>
      exact .before (.fixed _) (Draft.Writes.idents ", " (fun name => name) names).parens

theorem ofWord_writes (word : Except Error String) : (ofWord word).Writes [] := by
  cases word with
  | ok text => exact .fixed text
  | error e => exact .fail e

theorem Join.draft_writes (d : Dialect) (j : Join γ) (h : ∀ x ∈ j.parts, (u x).Writes (t x)) :
    ((j.map u).draft d).Writes (j.written.flatMap t) := by
  obtain ⟨kind, relation, constraint?⟩ := j
  have related := (h relation List.mem_cons_self).item
  have constrained : (((constraint?.map (·.map u)).map JoinConstraint.draft).getD nothing).Writes
      (((constraint?.map JoinConstraint.parts).getD []).flatMap t) := by
    cases constraint? with
    | none => exact .nothing
    | some c => exact c.draft_writes fun x hx => h x (List.mem_cons_of_mem _ hx)
  have structured : ∀ word : Except Error String,
      (ofWord word ++ fixed " " ++ (u relation).item ++
        ((constraint?.map (·.map u)).map JoinConstraint.draft).getD nothing).Writes
          ((Join.mk kind relation constraint?).parts.flatMap t) := fun word =>
    (Draft.Writes.before (.before (ofWord_writes word) (.fixed _)) related).append constrained
  cases kind with
  | raw =>
      show ((u relation).item).Writes ([relation].flatMap t)
      exact related.one
  | _ => exact structured _

theorem Source.draft_writes (d : Dialect) (s : Source γ)
    (h : ∀ x ∈ s.parts, (u x).Writes (t x)) :
    ((s.map u).draft d).Writes (s.written.flatMap t) := by
  obtain ⟨relation?, joins⟩ := s
  have related : List.Forall₂ Draft.Writes ((relation?.map u).toList.map Part.item)
      (relation?.toList.map t) := by
    cases relation? with
    | none => exact .nil
    | some x => exact .cons (h x (by simp [Source.parts])).item .nil
  have joined : List.Forall₂ Draft.Writes ((joins.map (·.map u)).map (Join.draft d))
      (joins.map fun j => j.written.flatMap t) := by
    rw [List.map_map]
    refine forall₂_map fun j hj => j.draft_writes d fun x hx => h x ?_
    exact List.mem_append_right _ (List.mem_flatMap.mpr ⟨j, hj, hx⟩)
  have written := Draft.Writes.sepBy " " (List.rel_append related joined)
  rw [List.flatten_append, ← List.flatMap_def, ← List.flatMap_def] at written
  rw [Source.written, List.flatMap_append, List.flatMap_assoc]
  exact written

theorem hintsDraft_writes (hints : List String) : (hintsDraft hints).Writes [] := by
  cases hints with
  | nil => exact .nothing
  | cons _ _ => exact .before (.fixed _) (.remark _ _)

theorem SetQuantifier.draft_writes (d : Dialect) (q : SetQuantifier γ)
    (h : ∀ x ∈ q.parts, (u x).Writes (t x)) :
    ((q.map u).draft d).Writes (q.parts.flatMap t) := by
  cases q with
  | all | distinct => exact .fixed _
  | distinctOn exprs =>
      cases d with
      | postgresql => exact .before (.fixed _) (Part.list_writes h).parens
      | _ => exact .fail _

theorem projectionsDraft_writes (xs : List γ) (h : ∀ x ∈ xs, (u x).Writes (t x)) :
    (projectionsDraft (xs.map u)).Writes (xs.flatMap t) := by
  have projected : List.Forall₂ Draft.Writes ((xs.map u).map Part.projection) (xs.map t) := by
    rw [List.map_map]
    exact forall₂_map fun x hx => (h x hx).projection
  cases xs with
  | nil => exact .fixed _
  | cons x xs => exact .sepBy ", " projected

theorem fromDraft_writes (d : Dialect) (s : Source γ) (h : ∀ x ∈ s.parts, (u x).Writes (t x)) :
    (fromDraft d (s.map u)).Writes (s.written.flatMap t) := by
  have source := s.draft_writes d h
  rcases s with ⟨_ | relation, _ | ⟨j, joins⟩⟩
  · exact .nothing
  · exact .fail _
  · exact .before (.fixed _) source
  · exact .before (.fixed _) source

theorem Core.draft_writes (d : Dialect) (c : Core γ) (h : ∀ x ∈ c.parts, (u x).Writes (t x)) :
    ((c.map u).draft d).Writes (c.written.flatMap t) := by
  obtain ⟨projections, filters, groups, havings, source, quantifier?, windows, comments, hints⟩ := c
  have quantified : (((quantifier?.map (·.map u)).map (SetQuantifier.draft d)).getD nothing).Writes
      (((quantifier?.map SetQuantifier.parts).getD []).flatMap t) := by
    cases quantifier? with
    | none => exact .nothing
    | some q => exact q.draft_writes d fun x hx => h x (by simp [Core.parts, hx])
  have projected := projectionsDraft_writes (u := u) (t := t) projections fun x hx =>
    h x (by simp [Core.parts, Core.children, hx])
  have read := fromDraft_writes (u := u) (t := t) d source fun x hx =>
    h x (by simp [Core.parts, Core.children, hx])
  have filtered : (clause " WHERE " " AND " (Part.conjuncts (filters.map u))).Writes
      (filters.flatMap t) :=
    .clause _ _ (Part.forall₂_conjuncts filters fun x hx =>
      h x (by simp [Core.parts, Core.children, hx]))
  have grouped : (clause " GROUP BY " ", " ((groups.map u).map Part.item)).Writes
      (groups.flatMap t) := by
    rw [List.map_map]
    exact .clause _ _ (forall₂_map fun x hx =>
      (h x (by simp [Core.parts, Core.children, hx])).item)
  have had : (clause " HAVING " " AND " (Part.conjuncts (havings.map u))).Writes
      (havings.flatMap t) :=
    .clause _ _ (Part.forall₂_conjuncts havings fun x hx =>
      h x (by simp [Core.parts, Core.children, hx]))
  have windowed : (clause " WINDOW " ", " ((windows.map (·.map u)).map NamedWindow.draft)).Writes
      (windows.flatMap fun w => w.window.parts.flatMap t) := by
    rw [List.map_map]
    exact .clause _ _ (forall₂_map fun w hw => w.draft_writes fun x hx =>
      h x (List.mem_append_right _ (List.mem_append_right _ (List.mem_flatMap.mpr ⟨w, hw, hx⟩))))
  have remarked : (inOrder (comments.map fun text =>
      fixed " " ++ remark false (Comment.clean text))).Writes (comments.flatMap fun _ => []) :=
    .inOrder (forall₂_map fun text _ => .before (.fixed _) (.remark _ _))
  rw [List.flatMap_eq_nil_iff.mpr fun _ _ => rfl] at remarked
  simp only [Core.written, List.flatMap_append, List.flatMap_assoc]
  have hinted := Draft.Writes.before (.fixed "SELECT") (hintsDraft_writes hints)
  have opening := (hinted.before quantified).behind (.fixed " ")
  have selected := (opening.append projected).append read
  exact ((((selected.append filtered).append grouped).append had).append windowed).behind remarked

theorem Cte.draft_writes (c : Cte γ) (h : (u c.relation).Writes (t c.relation)) :
    (c.map u).draft.Writes (t c.relation) := by
  obtain ⟨name, relation, materialized?⟩ := c
  refine .before (.before (.before (.ident _) (.fixed _)) ?_) (h.operand _)
  rcases materialized? with _ | _ | _
  · exact .nothing
  · exact .fixed _
  · exact .fixed _

theorem ordersDraft_writes (xs : List γ) (h : ∀ x ∈ xs, (u x).Writes (t x)) :
    (ordersDraft (xs.map u)).Writes (xs.flatMap t) := by
  rw [ordersDraft, List.map_map]
  exact .clause _ _ (forall₂_map fun x hx => (h x hx).item)

theorem limitDraft_writes (d : Dialect) (limit? offset? : Option γ)
    (hl : ∀ x ∈ limit?, (u x).Writes (t x)) (ho : ∀ x ∈ offset?, (u x).Writes (t x)) :
    (limitDraft d (limit?.map u) (offset?.map u)).Writes
      (limit?.toList.flatMap t ++ offset?.toList.flatMap t) := by
  refine .append ?_ (optional_writes _ ho)
  cases limit? with
  | some x => exact optional_writes " LIMIT " hl
  | none =>
      cases offset? with
      | none => exact .nothing
      | some y =>
          cases d with
          | mysql | sqlite => exact .fixed _
          | generic | postgresql => exact .nothing

theorem Lock.draft_writes (d : Dialect) (l : Lock) : (l.draft d).Writes [] := by
  cases d with
  | sqlite => exact .nothing
  | _ =>
      cases l with
      | forUpdate => exact .fixed _
      | raw text => exact .before (.fixed _) (.verbatim _)

theorem Modifiers.around_writes (d : Dialect) (m : Modifiers γ)
    (hb : ∀ x ∈ m.before, (u x).Writes (t x)) (ha : ∀ x ∈ m.after, (u x).Writes (t x))
    {body : Draft} {bs : List Bind} (h : body.Writes bs) :
    ((m.map u).around d body).Writes (m.before.flatMap t ++ bs ++ m.after.flatMap t) := by
  obtain ⟨with?, orders, limit?, offset?, lock?⟩ := m
  have ctes : (((with?.map (·.map u)).map With.draft).getD nothing).Writes
      ((Modifiers.before ⟨with?, orders, limit?, offset?, lock?⟩).flatMap t) := by
    rcases with? with _ | ⟨isRecursive, ctes⟩
    · exact .nothing
    · refine Draft.Writes.behind (.before (.fixed _) ?_) (.fixed _)
      show (sepBy ", " ((ctes.map (·.map u)).map Cte.draft)).Writes
        ((ctes.map (·.relation)).flatMap t)
      rw [List.map_map, List.flatMap_map]
      exact .sepBy _ (forall₂_map fun c hc => c.draft_writes (hb _ (List.mem_map.mpr ⟨c, hc, rfl⟩)))
  have ordered := ordersDraft_writes (u := u) (t := t) orders fun x hx =>
    ha x (by simp [Modifiers.after, hx])
  have limited := limitDraft_writes (u := u) (t := t) d limit? offset?
    (fun x hx => ha x (by simp [Modifiers.after, Option.mem_def.mp hx]))
    fun x hx => ha x (by simp [Modifiers.after, Option.mem_def.mp hx])
  have locked : ((lock?.map (Lock.draft d)).getD nothing).Writes [] := by
    cases lock? with
    | none => exact .nothing
    | some l => exact l.draft_writes d
  have after : (Modifiers.after ⟨with?, orders, limit?, offset?, lock?⟩).flatMap t =
      orders.flatMap t ++ (limit?.toList.flatMap t ++ offset?.toList.flatMap t) := by
    simp [Modifiers.after]
  rw [after, ← List.append_assoc]
  exact (((ctes.append h).append ordered).append limited).behind locked

theorem operandDraft_writes (d : Dialect) (op : SetOperator) (isLeft : Bool) (s : Select Part)
    {a : Draft} {bs : List Bind} (h : a.Writes bs) : (operandDraft d op isLeft s a).Writes bs := by
  cases d with
  | sqlite =>
      simp only [operandDraft]
      split_ifs
      · exact .fail _
      · exact .fail _
      · exact h
  | _ =>
      simp only [operandDraft]
      split_ifs
      · exact h
      · exact h.parens

theorem Select.draft_writes (d : Dialect) :
    ∀ s : Select γ, (∀ x ∈ s.parts, (u x).Writes (t x)) →
      ((s.map u).draft d).Writes (s.written.flatMap t)
  | .single core m, h => by
      have body := core.draft_writes d (u := u) (t := t) fun x hx =>
        h x (by simp [Select.parts, hx])
      rw [Select.written, List.flatMap_append, List.flatMap_append]
      exact m.around_writes d (fun x hx => h x (by simp [Select.parts, hx]))
        (fun x hx => h x (by simp [Select.parts, hx])) body
  | .compound op left right m, h => by
      have hl := left.draft_writes d fun x hx => h x (by simp [Select.parts, hx])
      have hr := right.draft_writes d fun x hx => h x (by simp [Select.parts, hx])
      have body := ((operandDraft_writes d op true (left.map u) hl).behind
        (.fixed (" " ++ op.text ++ " "))).append (operandDraft_writes d op false (right.map u) hr)
      rw [Select.written, List.flatMap_append, List.flatMap_append, List.flatMap_append]
      exact m.around_writes d (fun x hx => h x (by simp [Select.parts, hx]))
        (fun x hx => h x (by simp [Select.parts, hx])) body

end

end SqlTree
