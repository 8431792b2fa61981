import SqlTree.Proofs.Seams.Expression
import SqlTree.Proofs.Writing.Uniform.Node

/-!
# SqlTree — Proofs — the seams of statements

Every clause of a statement begins with a keyword and every statement with a word, so that a
statement fits behind any seam.  What a statement is refused for is of no concern: a draft that
stopped is never read.
-/

namespace SqlTree
open Draft

variable {d : Dialect} {undashed : Prop} {s : Seam}

/-! ### What a select reads from -/

theorem JoinConstraint.draft_fits (c : JoinConstraint Part) (h : ∀ p ∈ c.parts, p.Fits d undashed) :
    c.draft.Fits d undashed .tight .tight := by
  cases c with
  | on p => exact (Fits.word rfl).append (h p (by simp [JoinConstraint.parts])).item
  | columns names =>
      refine ((Fits.word rfl).append (.parens (Fits.sepBy_loose rfl fun a ha => ?_))).tighten
      obtain ⟨name, -, rfl⟩ := List.mem_map.mp ha
      exact (Fits.ident name).tighten

/-- A raw join begins as its relation does. -/
theorem Join.draft_fits (j : Join Part) (h : ∀ p ∈ j.parts, p.Fits d undashed)
    (head : j.kind = .raw → j.relation.item.Fits d undashed s .tight) :
    (j.draft d).Fits d undashed s .tight := by
  obtain ⟨kind, relation, constraint?⟩ := j
  have relation_item := (h relation (by simp [Join.parts])).item
  have constrained :
      ((constraint?.map JoinConstraint.draft).getD nothing).Fits d undashed .tight .tight :=
    Fits.option constraint? fun c hc => c.draft_fits fun p hp =>
      h p (by simp [Join.parts, Option.mem_def.mp hc, hp])
  have structured : (ofWord (d.joinText kind) ++ fixed " " ++ relation.item ++
      (constraint?.map JoinConstraint.draft).getD nothing).Fits d undashed s .tight := by
    cases hword : d.joinText kind with
    | ok text =>
        exact (((Fits.fixed (isSoft_joinText d hword)).append (.word rfl)).append
          relation_item).append constrained
    | error e => exact fun whole => by cases whole
  cases kind with
  | raw => exact head rfl
  | _ => exact structured

theorem Source.draft_fits (source : Source Part) (h : ∀ p ∈ source.parts, p.Fits d undashed) :
    (source.draft d).Fits d undashed .loose .tight := by
  refine Fits.sepBy_loose rfl fun a ha => ?_
  rw [List.mem_append] at ha
  obtain ha | ha := ha
  · obtain ⟨p, hp, rfl⟩ := List.mem_map.mp ha
    exact (h p (List.mem_append_left _ hp)).item
  · obtain ⟨j, hj, rfl⟩ := List.mem_map.mp ha
    have joined : ∀ p ∈ j.parts, p.Fits d undashed := fun p hp =>
      h p (List.mem_append_right _ (List.mem_flatMap.mpr ⟨j, hj, hp⟩))
    exact j.draft_fits joined fun _ => (joined _ (by simp [Join.parts])).item

/-! ### One block -/

theorem hintsDraft_fits (hints : List String) :
    (hintsDraft hints).Fits d undashed .loose .loose := by
  cases hints with
  | nil => exact .nothing
  | cons hint hints => exact (Fits.word rfl).append (.remark true _)

theorem SetQuantifier.draft_fits (q : SetQuantifier Part) (h : ∀ p ∈ q.parts, p.Fits d undashed) :
    (q.draft d).Fits d undashed .loose .loose := by
  cases q with
  | all | distinct => exact .word rfl
  | distinctOn exprs =>
      cases d with
      | postgresql => exact (Fits.word rfl).append (.parens (Part.list_fits h))
      | _ => exact .fail _

theorem projectionsDraft_fits {ps : List Part} (h : ∀ p ∈ ps, p.Fits d undashed) :
    (projectionsDraft ps).Fits d undashed .loose .tight := by
  cases ps with
  | nil => exact (Fits.sign rfl).tighten
  | cons p ps =>
      refine Fits.sepBy_loose rfl fun a ha => ?_
      obtain ⟨q, hq, rfl⟩ := List.mem_map.mp ha
      exact (h q hq).projection

theorem fromDraft_fits (source : Source Part) (h : ∀ p ∈ source.parts, p.Fits d undashed) :
    (fromDraft d source).Fits d undashed .tight .tight := by
  unfold fromDraft
  split_ifs
  · exact .nothing
  · exact .fail _
  · exact (Fits.word rfl).append (source.draft_fits h)

theorem Part.items_fit {ps : List Part} (h : ∀ p ∈ ps, p.Fits d undashed) :
    ∀ a ∈ ps.map Part.item, a.Fits d undashed .loose .tight := by
  intro a ha
  obtain ⟨p, hp, rfl⟩ := List.mem_map.mp ha
  exact (h p hp).item

theorem Core.draft_fits (c : Core Part) (h : ∀ p ∈ c.parts, p.Fits d undashed) :
    (c.draft d).Fits d undashed s .tight := by
  obtain ⟨projections, filters, groups, havings, source, quantifier?, windows, comments, hints⟩ := c
  have quantified : ((quantifier?.map (SetQuantifier.draft d)).getD nothing).Fits d undashed .loose
      .loose :=
    Fits.option quantifier? fun q hq => q.draft_fits fun p hp =>
      h p (by simp [Core.parts, Option.mem_def.mp hq, hp])
  have projected := projectionsDraft_fits fun p (hp : p ∈ projections) =>
    h p (by simp [Core.parts, Core.children, hp])
  have read := fromDraft_fits source fun p hp => h p (by simp [Core.parts, Core.children, hp])
  have filtered : (clause " WHERE " " AND " (Part.conjuncts filters)).Fits d undashed .tight
      .tight :=
    Fits.clause rfl rfl (Part.conjuncts_fit fun p hp =>
      h p (by simp [Core.parts, Core.children, hp]))
  have grouped : (clause " GROUP BY " ", " (groups.map Part.item)).Fits d undashed .tight .tight :=
    Fits.clause rfl rfl (Part.items_fit fun p hp => h p (by simp [Core.parts, Core.children, hp]))
  have had : (clause " HAVING " " AND " (Part.conjuncts havings)).Fits d undashed .tight .tight :=
    Fits.clause rfl rfl (Part.conjuncts_fit fun p hp =>
      h p (by simp [Core.parts, Core.children, hp]))
  have windowed : (clause " WINDOW " ", " (windows.map NamedWindow.draft)).Fits d undashed .tight
      .tight := by
    refine Fits.clause rfl rfl fun a ha => ?_
    obtain ⟨w, hw, rfl⟩ := List.mem_map.mp ha
    refine (w.draft_fits fun p hp => h p ?_).tighten
    exact List.mem_append_right _ (List.mem_append_right _ (List.mem_flatMap.mpr ⟨w, hw, hp⟩))
  have remarked : (inOrder (comments.map fun text =>
      fixed " " ++ remark false (Comment.clean text))).Fits d undashed .tight .tight := by
    refine Fits.inOrder fun a ha => ?_
    obtain ⟨text, -, rfl⟩ := List.mem_map.mp ha
    exact ((Fits.word rfl).append (.remark false _)).tighten
  exact (((((((((((Fits.word rfl).append (hintsDraft_fits hints)).append quantified).append
    (.word rfl)).append projected).append read).append filtered).append grouped).append
    had).append windowed).append remarked)

/-! ### The clauses around -/

theorem Cte.draft_fits (c : Cte Part) (h : c.relation.Fits d undashed) :
    c.draft.Fits d undashed s .tight := by
  obtain ⟨name, relation, materialized?⟩ := c
  refine (((Fits.ident _).append (.word rfl)).append ?_).append (h.operand _)
  rcases materialized? with _ | _ | _
  · exact .nothing
  · exact .word rfl
  · exact .word rfl

theorem With.draft_fits (w : With Part) (h : ∀ c ∈ w.ctes, c.relation.Fits d undashed) :
    w.draft.Fits d undashed s .loose := by
  obtain ⟨isRecursive, ctes⟩ := w
  refine (Fits.append (t := .loose) ?_ (Fits.sepBy_loose rfl fun a ha => ?_)).append (.word rfl)
  · cases isRecursive with
    | true => exact .word rfl
    | false => exact .word rfl
  · obtain ⟨c, hc, rfl⟩ := List.mem_map.mp ha
    exact c.draft_fits (h c hc)

theorem ordersDraft_fits {orders : List Part} (h : ∀ p ∈ orders, p.Fits d undashed) :
    (ordersDraft orders).Fits d undashed .tight .tight := Fits.clause rfl rfl (Part.items_fit h)

theorem limitDraft_fits {limit? offset? : Option Part} (hl : ∀ p ∈ limit?, p.Fits d undashed)
    (ho : ∀ p ∈ offset?, p.Fits d undashed) :
    (limitDraft d limit? offset?).Fits d undashed .tight .tight := by
  refine Fits.append ?_ (optional_fits rfl ho)
  cases limit? with
  | some p => exact (Fits.word rfl).append (hl p rfl).item
  | none =>
      cases offset? with
      | none => exact .nothing
      | some p =>
          have rows {text : String} (soft : isSoft text.toList = true) :
              (fixed text).Fits d undashed .tight .tight := (Fits.fixed soft).tighten
          cases d with
          | mysql =>
              show Fits .mysql undashed .tight .tight (fixed " LIMIT 18446744073709551615")
              exact rows (isSoft_ofList rfl)
          | sqlite =>
              show Fits .sqlite undashed .tight .tight (fixed " LIMIT -1")
              exact rows (isSoft_ofList rfl)
          | generic | postgresql => exact .nothing

theorem Lock.draft_fits (l : Lock)
    (raws : ∀ text ∈ l.raws, undashed → hasDashes text.toList = false) :
    (l.draft d).Fits d undashed .tight .tight := by
  cases d with
  | sqlite => exact .nothing
  | _ =>
      cases l with
      | forUpdate => exact (Fits.word rfl).tighten
      | raw text =>
          exact (Fits.word rfl).append (.verbatim_loose (raws text (List.mem_singleton_self text)))

theorem Modifiers.around_fits (m : Modifiers Part) (hb : ∀ p ∈ m.before, p.Fits d undashed)
    (ha : ∀ p ∈ m.after, p.Fits d undashed)
    (raws : ∀ text ∈ m.raws, undashed → hasDashes text.toList = false) {a : Draft}
    (h : a.Fits d undashed s .tight) : (m.around d a).Fits d undashed s .tight := by
  obtain ⟨with?, orders, limit?, offset?, lock?⟩ := m
  have ctes : ((with?.map With.draft).getD nothing).Fits d undashed s s :=
    Fits.option with? fun w hw => (w.draft_fits fun c hc =>
      hb _ (by simpa [Modifiers.before, Option.mem_def.mp hw] using ⟨c, hc, rfl⟩)).of_looser
  have ordered := ordersDraft_fits fun p (hp : p ∈ orders) => ha p (by simp [Modifiers.after, hp])
  have limited := limitDraft_fits
    (fun p (hp : p ∈ limit?) => ha p (by simp [Modifiers.after, Option.mem_def.mp hp]))
    fun p (hp : p ∈ offset?) => ha p (by simp [Modifiers.after, Option.mem_def.mp hp])
  have locked : ((lock?.map (Lock.draft d)).getD nothing).Fits d undashed .tight .tight :=
    Fits.option lock? fun l hl => l.draft_fits fun text htext =>
      raws text (by simpa [Modifiers.raws, Option.mem_def.mp hl] using htext)
  exact (((ctes.append h).append ordered).append limited).append locked

theorem operandDraft_fits (op : SetOperator) (isLeft : Bool) (select : Select Part) {a : Draft}
    (h : a.Fits d undashed .loose .tight) (behind : a.Fits d undashed s .tight) :
    (operandDraft d op isLeft select a).Fits d undashed s .tight := by
  cases d with
  | sqlite =>
      simp only [operandDraft]
      split_ifs
      · exact .fail _
      · exact .fail _
      · exact behind
  | _ =>
      simp only [operandDraft]
      split
      · exact behind
      · exact (Fits.parens h).tighten

theorem Select.draft_fits :
    ∀ {s : Seam} (select : Select Part), (∀ p ∈ select.parts, p.Fits d undashed) →
      (∀ text ∈ select.raws, undashed → hasDashes text.toList = false) →
        (select.draft d).Fits d undashed s .tight
  | s, .single core m, h, raws => by
      exact m.around_fits (fun p hp => h p (by simp [Select.parts, hp]))
        (fun p hp => h p (by simp [Select.parts, hp])) raws
        (core.draft_fits fun p hp => h p (by simp [Select.parts, hp]))
  | s, .compound op left right m, h, raws => by
      have hl {s : Seam} : (left.draft d).Fits d undashed s .tight :=
        left.draft_fits (fun p hp => h p (by simp [Select.parts, hp]))
          fun text ht => raws text (by simp [Select.raws, ht])
      have hr {s : Seam} : (right.draft d).Fits d undashed s .tight :=
        right.draft_fits (fun p hp => h p (by simp [Select.parts, hp]))
          fun text ht => raws text (by simp [Select.raws, ht])
      exact m.around_fits (fun p hp => h p (by simp [Select.parts, hp]))
        (fun p hp => h p (by simp [Select.parts, hp]))
        (fun text ht => raws text (by simp [Select.raws, ht]))
        (((operandDraft_fits op true left hl hl).append (.fixed (isSoft_setOperator op))).append
          (operandDraft_fits op false right hr hr))

/-! ### INSERT -/

theorem valuesDraft_fits {rows : List (List Part)} (h : ∀ p ∈ rows.flatten, p.Fits d undashed) :
    (valuesDraft rows).Fits d undashed s .tight := by
  refine (Fits.word rfl).append (Fits.sepBy_loose rfl fun a ha => ?_)
  obtain ⟨row, hrow, rfl⟩ := List.mem_map.mp ha
  refine (Fits.parens (Part.list_fits fun p hp => ?_)).tighten
  exact h p (List.mem_flatten.mpr ⟨row, hrow, hp⟩)

theorem defaultsDraft_fits : (defaultsDraft d).Fits d undashed s .loose := by
  have empty {s : Seam} : nothing.parens.Fits d undashed s .loose :=
    Fits.parens (t := .loose) .nothing
  cases d with
  | mysql => exact (((Fits.word rfl).append empty).append (.word rfl)).append empty
  | _ => exact .word rfl

theorem Insert.draft_fits (i : Insert Part) (h : ∀ p ∈ (Form.insert i).parts, p.Fits d undashed)
    (raws : ∀ text ∈ (Form.insert i).raws, undashed → hasDashes text.toList = false) :
    (i.draft d).Fits d undashed s .tight := by
  obtain ⟨table?, columns, source?⟩ := i
  cases table? with
  | none => exact .fail _
  | some t =>
      have named : (if columns.isEmpty then nothing
          else fixed " " ++ (sepBy ", " (columns.map fun c => ident c.name)).parens).Fits d
            undashed .loose .loose := by
        split
        · exact .nothing
        · refine (Fits.word rfl).append (.parens (Fits.sepBy_loose rfl fun a ha => ?_))
          obtain ⟨c, -, rfl⟩ := List.mem_map.mp ha
          exact (Fits.ident c.name).tighten
      refine (((Fits.word rfl).append (.ident _)).append named).append ?_
      rcases source? with _ | rows | select
      · show Fits d undashed .loose .tight (if columns.isEmpty then _ else _)
        split
        · exact defaultsDraft_fits.tighten
        · exact .fail _
      · exact (Fits.word rfl).append (valuesDraft_fits h)
      · exact (Fits.word rfl).append (select.draft_fits h raws)

/-! ### The rows of UPDATE and DELETE -/

/-- All parts of the rows fit. -/
structure Rows.Fits (d : Dialect) (undashed : Prop) (r : Rows Part) : Prop where
  source : ∀ p ∈ r.source.parts, p.Fits d undashed
  after : ∀ p ∈ r.after, p.Fits d undashed
  key : ∀ p ∈ r.key?, p.Fits d undashed

theorem wrappedKeys_fits {key : Part} (h : key.Fits d undashed) {keys : Select Part}
    (hkeys : (keys.draft d).Fits d undashed .loose .tight) :
    ((wrappedKeys d key keys).draft d).Fits d undashed .loose .tight := by
  refine Select.draft_fits _ (fun p hp => ?_) (by simp [wrappedKeys, Select.raws, Modifiers.raws])
  simp only [wrappedKeys, Select.parts, Modifiers.before, Modifiers.after, Core.parts,
    Core.children, Source.parts, Option.map_none, Option.getD_none, Option.toList_some,
    Option.toList_none, List.flatMap_nil, List.append_nil, List.nil_append, List.mem_append,
    List.mem_singleton] at hp
  obtain rfl | rfl := hp
  · exact h.wrappedKey
  · refine ⟨fun _ => (((Fits.parens hkeys).append (.word rfl)).append (.ident _)).tighten, ?_⟩
    intro _ call
    cases call

section
variable {r : Rows Part} (h : r.Fits d undashed)
include h

theorem Rows.filters_fit : (clause " WHERE " " AND " (Part.conjuncts r.filters)).Fits d undashed
    .tight .tight :=
  Fits.clause rfl rfl (Part.conjuncts_fit fun p hp => h.after p (by simp [Rows.after, hp]))

theorem Rows.inPlace_fits : (r.inPlace d).Fits d undashed .tight .tight := by
  have ordered := ordersDraft_fits fun p (hp : p ∈ r.orders) =>
    h.after p (by simp [Rows.after, hp])
  have limited : (limitDraft d r.limit? none).Fits d undashed .tight .tight :=
    limitDraft_fits (fun p hp => h.after p (by simp [Rows.after, Option.mem_def.mp hp])) (by simp)
  exact ((Rows.filters_fit h).append ordered).append limited

theorem Rows.restriction_fits {key : Part} (hkey : key ∈ r.key?) :
    (r.restriction d key).Fits d undashed .loose .tight := by
  have key_fits := h.key key hkey
  have keys : ((r.keys key).draft d).Fits d undashed .loose .tight := by
    refine (r.keys key).draft_fits (fun p hp => ?_) nofun
    rw [Rows.parts_keys, List.mem_cons, List.mem_append] at hp
    obtain rfl | hp | hp := hp
    · exact key_fits
    · exact h.source p hp
    · exact h.after p hp
  refine (((key_fits.operand _).append (.word rfl)).append (.parens (t := .tight) ?_)).tighten
  -- MySQL reads the keys through a derived table
  cases d with
  | mysql => exact wrappedKeys_fits key_fits keys
  | _ => exact keys

theorem Rows.restrict_fits (missingKey : Gap) {a : Draft} (ha : a.Fits d undashed s .tight) :
    (r.restrict d missingKey a).Fits d undashed s .tight := by
  unfold Rows.restrict
  split
  · split
    · exact .fail _
    · next key hkey => exact (ha.append (.word rfl)).append (Rows.restriction_fits h hkey)
  · exact ha.append (Rows.filters_fit h)

end

/-! ### UPDATE and DELETE -/

theorem Update.draft_fits (w : Update Part) (h : ∀ p ∈ (Form.update w).parts, p.Fits d undashed) :
    (w.draft d).Fits d undashed s .tight := by
  obtain ⟨rows, assignments⟩ := w
  have fits : rows.Fits d undashed := by
    refine ⟨fun p hp => h p ?_, fun p hp => h p ?_, fun p hp => h p ?_⟩
    · simp [Form.parts, Update.children, hp]
    · simp [Form.parts, Update.children, hp]
    · simp [Form.parts, Option.mem_def.mp hp]
  have set : (fixed " SET " ++ Part.list assignments).Fits d undashed .tight .tight :=
    (Fits.word rfl).append (Part.list_fits fun p hp =>
      h p (by simp [Form.parts, Update.children, hp]))
  simp only [Update.draft]
  split
  · exact .fail _
  · next relation hr =>
      have target := (fits.source relation (by simp [Source.parts, hr])).item
      split_ifs
      · exact .fail _
      · exact (((Fits.word rfl).append (rows.source.draft_fits fits.source)).append set).append
          (Rows.inPlace_fits fits)
      · exact Rows.restrict_fits fits _ (((Fits.word rfl).append target).append set)

theorem Delete.draft_fits (w : Delete Part) (h : ∀ p ∈ (Form.delete w).parts, p.Fits d undashed) :
    (w.draft d).Fits d undashed s .tight := by
  obtain ⟨rows⟩ := w
  have fits : rows.Fits d undashed := by
    refine ⟨fun p hp => h p ?_, fun p hp => h p ?_, fun p hp => h p ?_⟩
    · simp [Form.parts, Delete.children, hp]
    · simp [Form.parts, Delete.children, hp]
    · simp [Form.parts, Option.mem_def.mp hp]
  simp only [Delete.draft]
  split
  · exact .fail _
  · next relation hr =>
      have target := fits.source relation (by simp [Source.parts, hr])
      split_ifs
      · have named : (onlyIf (!rows.source.joins.isEmpty)
            (deleteTarget relation ++ fixed " ")).Fits d undashed .loose .loose :=
          Fits.onlyIf _ (target.deleteTarget.append (.word rfl))
        exact ((((Fits.word rfl).append named).append (.word rfl)).append
          (rows.source.draft_fits fits.source)).append (Rows.inPlace_fits fits)
      · exact Rows.restrict_fits fits _ ((Fits.word rfl).append target.item)

end SqlTree
