import SqlTree.Proofs.Seams.Head
import SqlTree.Proofs.Seams.Path

/-!
# SqlTree — Proofs — the seams of expressions

Between two parts of a construct there is a word, a sign with blanks around it or a parenthesis, so
that the parts may end and begin as they like.  Three places are otherwise: what a construct begins
with comes right behind what stands before the construct, a prefix operator comes right before its
operand, and the arguments of EXISTS come right behind each other.  So a construct fits behind a seam
if the part that it begins with does, and if what it writes without a blank keeps apart.
-/

namespace SqlTree
open Draft

variable {d : Dialect} {undashed : Prop} {s : Seam}

/-! ### Parts -/

/-- What is written for the part fits behind a loose seam. -/
structure Part.Fits (d : Dialect) (undashed : Prop) (p : Part) : Prop where
  draft : ∀ place, (p.2 place).Fits d undashed .loose .tight
  /-- An implicit name may be written. -/
  implicit : ∀ name, p.node.outline = .call name → undashed → hasDashes name.toList = false

namespace Part.Fits

variable {p : Part} (h : p.Fits d undashed)
include h

theorem item : p.item.Fits d undashed .loose .tight := h.draft .item

theorem operand_behind {least : Nat}
    (head : ∀ q ∈ bare Part.node least p, q.item.Fits d undashed s .tight) :
    (p.operand least).Fits d undashed s .tight := by
  unfold Part.operand
  by_cases loose : p.node.strength < least
  · rw [if_pos loose]
    exact (Draft.Fits.parens h.item).tighten
  · rw [if_neg loose]
    exact head p (if_neg loose)

theorem operand (least : Nat) : (p.operand least).Fits d undashed .loose .tight :=
  h.operand_behind fun _ hq => eq_of_mem_bare hq ▸ h.item

theorem enclosed (head : ∀ q ∈ UnaryOperator.grouping.head? d Part.node p,
    q.item.Fits d undashed s .tight) : p.enclosed.Fits d undashed s .tight := by
  unfold Part.enclosed
  by_cases inside : (p.node.isGrouping || p.node.isSelect) = true
  · rw [if_pos inside]
    exact head p (if_pos inside)
  · rw [if_neg inside]
    exact (Draft.Fits.parens h.item).tighten

theorem bounds : p.bounds.Fits d undashed .loose .tight := by
  rw [p.told.bounds]
  split
  · exact h.draft .bounds
  · exact h.operand _

theorem members : p.members.Fits d undashed .loose .tight := by
  rw [p.told.members]
  split
  · exact (Draft.Fits.parens h.item).tighten
  · exact h.operand _

omit h in
theorem target (head : p.item.Fits d undashed s .tight) : p.target.Fits d undashed s .tight := by
  rw [p.told.target]
  split
  · exact (Draft.Fits.ident _).tighten
  · exact head

theorem projection : p.projection.Fits d undashed .loose .tight := by
  rw [p.told.projection]
  split
  · next name call =>
      exact (h.item.append (.word rfl)).append (.verbatim_loose (h.implicit name call))
  · exact h.item

theorem deleteTarget : (deleteTarget p).Fits d undashed .loose .tight := by
  rw [p.told.deleteTarget]
  split
  · exact (Draft.Fits.ident _).tighten
  · exact h.item

theorem wrappedKey : (wrappedKey p).Fits d undashed := by
  rw [p.told.wrappedKey]
  split
  · exact ⟨fun _ => (Draft.Fits.ident _).tighten, nofun⟩
  · exact h

end Part.Fits

/-! ### Columns and lists -/

theorem Table.draft_fits (t : Table) : t.draft.Fits d undashed s .loose := by
  unfold Table.draft
  split
  · exact ((Fits.ident _).append (.word rfl)).append (.ident _)
  · exact .ident _

theorem Column.draft_fits (c : Column) : c.draft.Fits d undashed s .loose := by
  refine ((Fits.ident _).append (.word rfl)).append ?_
  split
  · exact .sign rfl
  · exact .ident _

section
variable {ps : List Part} (h : ∀ p ∈ ps, p.Fits d undashed)
include h

theorem Part.list_fits_behind (first : ∀ p ∈ ps.head?, p.item.Fits d undashed s .tight) :
    (Part.list ps).Fits d undashed s .tight := by
  refine Fits.sepBy rfl (fun a ha => ?_) fun a ha => ?_
  · rw [List.head?_map] at ha
    obtain ⟨p, hp, rfl⟩ := Option.map_eq_some_iff.mp ha
    exact first p hp
  · obtain ⟨p, hp, rfl⟩ := List.mem_map.mp ha
    exact (h p hp).item

theorem Part.list_fits : (Part.list ps).Fits d undashed .loose .tight :=
  Part.list_fits_behind h fun p hp => (h p (List.mem_of_head? hp)).item

theorem Part.conjuncts_fit : ∀ a ∈ Part.conjuncts ps, a.Fits d undashed .loose .tight := by
  intro a ha
  obtain ⟨p, hp, rfl⟩ := List.mem_map.mp ha
  exact (h p hp).operand _

theorem conjunction_fits (first : ∀ p ∈ ps.head?.bind (bare Part.node Strength.conjunction),
    p.item.Fits d undashed s .tight) : (conjunction ps).Fits d undashed s .tight := by
  cases ps with
  | nil => exact (Fits.word rfl).tighten
  | cons p ps =>
      refine Fits.sepBy rfl (fun a ha => ?_) (Part.conjuncts_fit h)
      cases ha
      exact (h p List.mem_cons_self).operand_behind first

end

theorem optional_fits {keyword : List Char} (soft : isSoft keyword = true) {p? : Option Part}
    (h : ∀ p ∈ p?, p.Fits d undashed) :
    (optional (String.ofList keyword) p?).Fits d undashed .tight .tight := by
  cases p? with
  | none => exact .nothing
  | some p => exact (Fits.word soft).append (h p rfl).item

/-! ### Operators -/

/-- The operand of a prefix operator is the one that stands right behind a text of the caller. -/
theorem UnaryOperator.draft_fits (op : UnaryOperator) {p : Part} (h : p.Fits d undashed)
    (own : s = .tight → (Form.unary op p).signs d = false)
    (head : ∀ q ∈ op.head? d Part.node p, q.item.Fits d undashed s .tight)
    (abut : ∀ q ∈ (Form.unary op p).abutting Part.node, q.item.Fits d undashed .tight .tight)
    (spelled : ∀ text, op = .leading text → undashed → hasDashes text.toList = false) :
    (op.draft d p).Fits d undashed s .tight := by
  cases op with
  | not | lateral => exact (Fits.word rfl).append (h.operand _)
  | grouping => exact h.enclosed head
  | cube | rollup | groupingSet =>
      exact ((Fits.word rfl).append (.parens (h.draft _))).tighten
  | bin =>
      cases d with
      | mysql => exact (Fits.word rfl).append (h.operand _)
      | _ => exact head p rfl
  | leading text =>
      refine (Fits.verbatim own (spelled text rfl)).append ?_
      exact h.operand_behind fun q hq => abut q (Option.mem_toList.mpr hq)

theorem BinaryOperator.sign_fits (op : BinaryOperator)
    (spelled : ∀ text, op = .custom text → undashed → hasDashes text.toList = false) :
    (op.sign d).Fits d undashed s .loose := by
  cases op with
  | custom text =>
      exact ((Fits.word rfl).append (.verbatim_loose (spelled text rfl))).append (.word rfl)
  | _ => exact .fixed (isSoft_operatorText d (by simp))

section
variable {left right : Part} (hl : left.Fits d undashed) (hr : right.Fits d undashed)
include hl

theorem nullDraft_fits (negated : Bool)
    (head : ∀ q ∈ bare Part.node Strength.compared left, q.item.Fits d undashed s .tight) :
    (nullDraft negated left).Fits d undashed s .tight := by
  refine (hl.operand_behind head).append (Fits.tighten (t := .loose) ?_)
  cases negated with
  | true => exact .word rfl
  | false => exact .word rfl

include hr

theorem BinaryOperator.spread_fits (op : BinaryOperator)
    (head : ∀ q ∈ bare Part.node (leftLeast op.strength) left, q.item.Fits d undashed s .tight)
    (spelled : ∀ text, op = .custom text → undashed → hasDashes text.toList = false) :
    (op.spread d left right).Fits d undashed s .tight :=
  ((hl.operand_behind head).append (op.sign_fits spelled)).append (hr.operand _)

theorem distinctDraft_fits (negated : Bool)
    (head : ∀ q ∈ bare Part.node Strength.compared left, q.item.Fits d undashed s .tight) :
    (distinctDraft d negated left right).Fits d undashed s .tight := by
  have left_fits := hl.operand_behind head
  have right_fits := hr.operand Strength.compared
  cases d with
  | mysql =>
      exact (((Fits.onlyIf _ (.word rfl)).append left_fits).append (.word rfl)).append right_fits
  | _ =>
      refine (left_fits.append ?_).append right_fits
      cases negated with
      | true => exact .word rfl
      | false => exact .word rfl

theorem membershipDraft_fits (negated : Bool)
    (head : ∀ q ∈ bare Part.node Strength.compared left, q.item.Fits d undashed s .tight) :
    (membershipDraft negated left right).Fits d undashed s .tight := by
  unfold membershipDraft
  split
  · cases negated with
    | true => exact (Fits.word rfl).tighten
    | false => exact (Fits.word rfl).tighten
  · refine ((hl.operand_behind head).append ?_).append hr.members
    cases negated with
    | true => exact .word rfl
    | false => exact .word rfl

theorem BinaryOperator.draft_fits (op : BinaryOperator)
    (head : ∀ q ∈ op.head? d Part.node left, q.item.Fits d undashed s .tight)
    (spelled : ∀ text, op = .custom text → undashed → hasDashes text.toList = false) :
    (op.draft d left right).Fits d undashed s .tight := by
  cases op with
  | equality | notEqual =>
      simp only [BinaryOperator.draft]
      split
      · exact nullDraft_fits hl _ head
      · exact spread_fits hl hr _ head spelled
  | isNotDistinctFrom | isDistinctFrom =>
      simp only [BinaryOperator.draft]
      split
      · exact nullDraft_fits hl _ head
      · exact distinctDraft_fits hl hr _ head
  | isIn | isNotIn => exact membershipDraft_fits hl hr _ head
  | between => exact ((hl.operand_behind head).append (.word rfl)).append hr.bounds
  | concat =>
      cases d with
      | mysql =>
          exact ((Fits.word rfl).append
            (.parens ((hl.item.append (.word rfl)).append hr.item))).tighten
      | _ => exact spread_fits hl hr _ head spelled
  | named => exact ((head left rfl).append (.word rfl)).append hr.item
  | assignment => exact ((Part.Fits.target (head left rfl)).append (.word rfl)).append hr.item
  | filter =>
      exact (((hl.operand_behind head).append (.word rfl)).append
        (.parens ((Fits.word rfl).append hr.item))).tighten
  | _ => exact spread_fits hl hr _ head spelled

theorem boundsDraft_fits : (boundsDraft left right).Fits d undashed .loose .tight :=
  ((hl.operand _).append (.word rfl)).append (hr.operand _)

theorem matchingDraft_fits (escape? : Option String) (caseSensitive negated : Bool)
    (head : ∀ q ∈ bare Part.node Strength.compared left, q.item.Fits d undashed s .tight) :
    (matchingDraft d left right escape? caseSensitive negated).Fits d undashed s .tight := by
  have operator : Fits d undashed .tight .loose _ :=
    .fixed (isSoft_likeText d caseSensitive negated)
  refine (((hl.operand_behind head).append operator).append (hr.operand _)).append ?_
  cases escape? with
  | none => exact .nothing
  | some escape => exact ((Fits.word rfl).append (.stringLiteral _)).tighten

theorem regexpDraft_fits (caseSensitive negated : Bool)
    (head : ∀ q ∈ bare Part.node Strength.compared left, q.item.Fits d undashed s .tight) :
    (regexpDraft d left right caseSensitive negated).Fits d undashed s .tight := by
  unfold regexpDraft
  cases hw : d.regexpText caseSensitive negated with
  | ok operator =>
      exact ((hl.operand_behind head).append (.fixed (isSoft_regexpText d hw))).append
        (hr.operand _)
  | error e => exact .fail e

end

/-! ### Calls and cases -/

theorem FunctionKind.text_clean (kind : FunctionKind)
    (spelled : ∀ name, kind = .named name → undashed → hasDashes name.toList = false)
    (hu : undashed) : hasDashes kind.text.toList = false := by
  cases kind with
  | named name => exact spelled name rfl hu
  | _ => exact hasDashes_ofList rfl

/-- The arguments of EXISTS stand right behind each other. -/
theorem inOrder_operands_fit {ps : List Part} (h : ∀ p ∈ ps, p.Fits d undashed)
    (abut : ∀ q ∈ ps.tail.filterMap (bare Part.node Strength.atom),
      q.item.Fits d undashed .tight .tight) :
    (inOrder (ps.map (Part.operand Strength.atom))).Fits d undashed .loose .tight := by
  cases ps with
  | nil => exact Fits.nothing.tighten
  | cons p ps =>
      refine ((h p List.mem_cons_self).operand _).append (Fits.inOrder fun a ha => ?_)
      obtain ⟨q, hq, rfl⟩ := List.mem_map.mp ha
      refine (h q (List.mem_cons_of_mem p hq)).operand_behind fun x hx => abut x ?_
      exact List.mem_filterMap.mpr ⟨q, hq, hx⟩

theorem Call.draft_fits (c : Call Part) (h : ∀ p ∈ c.arguments, p.Fits d undashed)
    (own : s = .tight → (Form.call c).signs d = false)
    (abut : ∀ q ∈ (Form.call c).abutting Part.node, q.item.Fits d undashed .tight .tight)
    (raws : ∀ text ∈ c.raws, undashed → hasDashes text.toList = false) :
    c.draft.Fits d undashed s .tight := by
  obtain ⟨kind, arguments, distinct, alias?⟩ := c
  -- the alias comes after the call, if it is written at all
  have call : (Call.draft ⟨kind, arguments, distinct, none⟩).Fits d undashed s .tight := by
    have name : undashed → hasDashes kind.text.toList = false :=
      kind.text_clean fun name hname => raws name (by simp [Call.raws, hname])
    have listed : (verbatim kind.text ++
        (onlyIf distinct (fixed "DISTINCT ") ++ Part.list arguments).parens).Fits d undashed s
        .tight :=
      ((Fits.verbatim own name).append
        (.parens ((Fits.onlyIf _ (.word rfl)).append (Part.list_fits h)))).tighten
    cases kind with
    | «exists» => exact (Fits.word rfl).append (inOrder_operands_fit h abut)
    | _ => exact listed
  rcases alias? with _ | ⟨name, _ | _⟩
  · exact call
  · exact (call.append (.word rfl)).append (.verbatim_loose (raws name (by simp [Call.raws])))
  · exact call

theorem extractDraft_fits {p : Part} (h : p.Fits d undashed) (field : String)
    (spelled : undashed → hasDashes field.toList = false) :
    (extractDraft d p field).Fits d undashed s .tight := by
  have capitals : undashed →
      hasDashes (String.ofList (Text.upper field.toList)).toList = false := fun hu => by
    rw [String.toList_ofList, hasDashes_upper]
    exact spelled hu
  have inside : (verbatim (String.ofList (Text.upper field.toList)) ++ fixed " FROM " ++
      p.item).Fits d undashed .loose .tight :=
    ((Fits.verbatim_loose capitals).append (.word rfl)).append h.item
  cases d with
  | sqlite => exact .fail _
  | _ => exact ((Fits.word rfl).append (.parens inside)).tighten

theorem castDraft_fits {p : Part} (h : p.Fits d undashed) (typeName : String)
    (spelled : undashed → hasDashes typeName.toList = false) :
    (castDraft p typeName).Fits d undashed s .tight :=
  ((Fits.word rfl).append
    (.parens ((h.item.append (.word rfl)).append (.verbatim_loose spelled)))).tighten

theorem Case.draft_fits (c : Case Part) (h : ∀ p ∈ c.parts, p.Fits d undashed) :
    c.draft.Fits d undashed s .tight := by
  obtain ⟨subject?, arms, default?⟩ := c
  simp only [Case.parts, List.mem_append, List.mem_flatMap, Option.mem_toList] at h
  have subject : (optional " " subject?).Fits d undashed .tight .tight :=
    optional_fits rfl fun p hp => h p (.inl (.inl hp))
  have default : (optional " ELSE " default?).Fits d undashed .tight .tight :=
    optional_fits rfl fun p hp => h p (.inr hp)
  refine ((((Fits.word rfl).tighten.append subject).append (Fits.inOrder fun a ha => ?_)).append
    default).append (Fits.word rfl).tighten
  obtain ⟨arm, harm, rfl⟩ := List.mem_map.mp ha
  have condition := h arm.1 (.inl (.inr ⟨arm, harm, by simp⟩))
  have result := h arm.2 (.inl (.inr ⟨arm, harm, by simp⟩))
  exact (((Fits.word rfl).append condition.item).append (.word rfl)).append result.item

/-! ### Sort keys and windows -/

theorem nullsWords_fits (nulls? : Option NullsPlacement) :
    (nullsWords d nulls?).Fits d undashed s s := by
  unfold nullsWords
  split
  · exact .nothing
  · exact .nothing
  · exact (Fits.word rfl).of_looser
  · exact (Fits.word rfl).of_looser

theorem SortKey.draft_fits (k : SortKey Part) (h : k.expr.Fits d undashed)
    (head : k.expr.item.Fits d undashed s .tight) : (k.draft d).Fits d undashed s .tight := by
  have behind {t : Seam} (rest : k.expr.item.Fits d undashed t .tight) :
      (k.expr.item ++ fixed (" " ++ k.direction.text) ++ nullsWords d k.nulls?).Fits d undashed t
        .tight :=
    ((rest.append (.fixed (isSoft_direction k.direction))).append (nullsWords_fits _)).tighten
  have test {cs : List Char} (soft : isSoft cs = true) :
      (k.expr.operand Strength.compared ++ fixed (String.ofList cs)).Fits d undashed s .loose :=
    (h.operand_behind fun _ hq => eq_of_mem_bare hq ▸ head).append (.word soft)
  have tested : (nullsTest d k ++ (k.expr.item ++ fixed (" " ++ k.direction.text) ++
      nullsWords d k.nulls?)).Fits d undashed s .tight := by
    unfold nullsTest
    split
    · exact (test rfl).append (behind h.item)
    · exact (test rfl).append (behind h.item)
    · exact behind head
  simpa only [SortKey.draft, append_assoc] using tested

theorem Window.draft_fits (w : Window Part) (h : ∀ p ∈ w.parts, p.Fits d undashed) :
    w.draft.Fits d undashed s .loose := by
  obtain ⟨partitions, orders, frame?⟩ := w
  have keyed {keyword : List Char} (soft : isSoft keyword = true) {ps : List Part}
      (hps : ∀ p ∈ ps, p.Fits d undashed) :
      ∀ a ∈ (if ps.isEmpty then [] else [fixed (String.ofList keyword) ++ Part.list ps]),
        a.Fits d undashed .loose .tight := by
    intro a ha
    split at ha
    · cases ha
    · rw [List.mem_singleton] at ha
      subst ha
      exact (Fits.word soft).append (Part.list_fits hps)
  refine .parens (Fits.sepBy_loose rfl fun a ha => ?_)
  rw [List.mem_append, List.mem_append] at ha
  obtain (ha | ha) | ha := ha
  · exact keyed rfl (fun p hp => h p (List.mem_append_left _ hp)) a ha
  · exact keyed rfl (fun p hp => h p (List.mem_append_right _ hp)) a ha
  · obtain ⟨f, -, rfl⟩ := List.mem_map.mp ha
    exact (Fits.fixed (isSoft_frame f)).tighten

theorem NamedWindow.draft_fits (w : NamedWindow Part)
    (h : ∀ p ∈ w.window.parts, p.Fits d undashed) : w.draft.Fits d undashed s .loose :=
  ((Fits.ident _).append (.word rfl)).append (w.window.draft_fits h)

theorem overDraft_fits {p : Part} (hp : p.Fits d undashed) (w : WindowRef Part)
    (h : ∀ q ∈ w.parts, q.Fits d undashed)
    (head : ∀ q ∈ bare Part.node Strength.atom p, q.item.Fits d undashed s .tight) :
    (overDraft p w).Fits d undashed s .tight := by
  refine ((hp.operand_behind head).append (.word rfl)).append (Fits.tighten (t := .loose) ?_)
  cases w with
  | empty => exact .parens (t := .loose) .nothing
  | named name => exact .ident _
  | inline w => exact w.draft_fits h

end SqlTree
