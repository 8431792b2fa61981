import SqlTree.Proofs.Mutation.Restriction
import SqlTree.Proofs.Writing.Slots.Select

/-!
# SqlTree — Proofs — the slots of trees

`Form.written` lists the parts of a construct that are written, in order.  It has every part but
those that a construct drops, such as the constraint of a raw join; the key of an UPDATE or a DELETE
is there twice where the rows are found by a select of their keys.

MySQL has ways of its own to write a few constructs (`Form.isPlain` leaves them out).

* `Node.draft_writes`: what is written for a tree in any dialect has the slots of its written parts,
  one after the other.
-/

namespace SqlTree
open Draft

section
variable {α : Type}

/-! ### Written parts -/

def InsertSource.written : InsertSource α → List α
  | values rows => rows.flatten
  | select s => s.written

/-- What restricts the rows of a statement: their filters, or the key and the select that finds
it. -/
def Rows.restrictedBy (r : Rows α) : List α :=
  if r.needsKey then r.key?.toList.flatMap fun key => key :: (r.keys key).written else r.filters

def Rows.written (assignments : List α) (r : Rows α) : List α :=
  r.source.relation?.toList ++ assignments ++ r.restrictedBy

/-- The parts of a construct that are written, in the order of writing, and as often as they are;
`node` is what a part is. -/
def Form.written (node : α → Node) : Form α → List α
  | binary op left right => op.written node left right
  | join j => j.written
  | select s => s.written
  | insert s => (s.source?.map InsertSource.written).getD []
  | update s => s.rows.written s.assignments
  | delete s => s.rows.written []
  | form => form.parts

/-- MySQL writes the parts of the construct as the other dialects do: it is no sort key that says
where the rows without a value go, and it changes only rows that are a filter of one relation. -/
def Form.isPlain : Form α → Bool
  | sortKey k => k.nulls?.isNone
  | update s => s.rows.isPlain
  | delete s => s.rows.isPlain
  | _ => true

end

/-! ### Written parts and maps -/

section
variable {α β : Type} (f : α → β)

@[simp] theorem InsertSource.written_map :
    ∀ s : InsertSource α, (s.map f).written = s.written.map f
  | .values _ => by simp [InsertSource.map, InsertSource.written, List.map_flatten]
  | .select s => s.written_map f

theorem Rows.keys_map (r : Rows α) (key : α) : (r.map f).keys (f key) = (r.keys key).map f := rfl

@[simp] theorem Rows.restrictedBy_map (r : Rows α) :
    (r.map f).restrictedBy = r.restrictedBy.map f := by
  rw [Rows.restrictedBy, Rows.needsKey_map, Rows.restrictedBy]
  split_ifs
  · have key : (r.map f).key? = r.key?.map f := rfl
    rw [key]
    cases r.key? with
    | none => rfl
    | some key => simp [Rows.keys_map]
  · rfl

theorem Rows.written_map (assignments : List α) (r : Rows α) :
    (r.map f).written (assignments.map f) = (r.written assignments).map f := by
  simp [Rows.written, Option.toList_map]

/-- The written parts of a form with changed subtrees are its written parts, changed. -/
theorem Form.written_map (node : β → Node) (form : Form α) :
    (form.map f).written node = (form.written fun x => node (f x)).map f := by
  have all := form.parts_map f
  cases form with
  | binary op left right => exact op.written_map f node left right
  | join j => exact j.written_map f
  | select s => exact s.written_map f
  | insert s =>
      obtain ⟨_, _, _ | source⟩ := s
      · rfl
      · exact source.written_map f
  | update s => exact s.rows.written_map f s.assignments
  | delete s => exact s.rows.written_map f []
  | _ => exact all

end

section
variable {γ : Type} {u : γ → Part} {t : γ → List Bind}

/-! ### Changes of rows -/

theorem valuesDraft_writes {rows : List (List γ)} (h : ∀ x ∈ rows.flatten, (u x).Writes (t x)) :
    (valuesDraft (rows.map (·.map u))).Writes (rows.flatten.flatMap t) := by
  rw [valuesDraft, List.map_map, ← List.flatMap_id, List.flatMap_assoc]
  exact .before (.fixed _) (.sepBy _ (forall₂_map fun row hrow => Draft.Writes.parens
    (Part.list_writes fun x hx => h x (List.mem_flatten.mpr ⟨row, hrow, hx⟩))))

theorem Insert.draft_writes (d : Dialect) (s : Insert γ)
    (h : ∀ x ∈ (Form.insert s).parts, (u x).Writes (t x)) :
    ((s.map u).draft d).Writes
      (((s.source?.map InsertSource.written).getD []).flatMap t) := by
  obtain ⟨table?, columns, source?⟩ := s
  cases table? with
  | none => exact .fail _
  | some t =>
      refine .before (.before (.before (.fixed _) (.ident _)) ?_) ?_
      · show Draft.Writes (if columns.isEmpty then nothing else _) []
        split
        · exact .nothing
        · exact .before (.fixed _) (Draft.Writes.idents ", " Column.name columns).parens
      · rcases source? with _ | rows | select
        · show Draft.Writes (if columns.isEmpty then _ else _) []
          split
          · cases d with
            | mysql =>
                exact .before (.before (.before (.fixed _) Draft.Writes.nothing.parens) (.fixed _))
                  Draft.Writes.nothing.parens
            | _ => exact .fixed _
          · exact .fail _
        · exact .before (.fixed _) (valuesDraft_writes h)
        · exact .before (.fixed _) (select.draft_writes d h)

/-- All parts of the rows have their slots. -/
structure Rows.Writes (u : γ → Part) (t : γ → List Bind) (r : Rows γ) : Prop where
  source : ∀ x ∈ r.source.parts, (u x).Writes (t x)
  after : ∀ x ∈ r.after, (u x).Writes (t x)
  key : ∀ x ∈ r.key?, (u x).Writes (t x)

section
variable {d : Dialect} {r : Rows γ} (h : r.Writes u t)
include h

theorem Rows.filters_writes : (clause " WHERE " " AND " (Part.conjuncts (r.filters.map u))).Writes
    (r.filters.flatMap t) :=
  .clause _ _ (Part.forall₂_conjuncts _ fun x hx => h.after x (by simp [Rows.after, hx]))

theorem Rows.restriction_writes (foreign : d ≠ .mysql) {key : γ} (hkey : key ∈ r.key?) :
    ((r.map u).restriction d (u key)).Writes ((key :: (r.keys key).written).flatMap t) := by
  have keys : (((r.keys key).map u).draft d).Writes ((r.keys key).written.flatMap t) := by
    refine (r.keys key).draft_writes d fun x hx => ?_
    obtain rfl | hx | hx : x = key ∨ x ∈ r.source.parts ∨ x ∈ r.after := by
      simpa [Rows.parts_keys] using hx
    · exact h.key x hkey
    · exact h.source x hx
    · exact h.after x hx
  refine (((h.key key hkey).operand _).behind (.fixed _)).append (Draft.Writes.parens ?_)
  cases d with
  | mysql => exact absurd rfl foreign
  | _ => exact keys

theorem Rows.restrict_writes (plain : d = .mysql → r.isPlain = true) (missingKey : Gap) {a : Draft}
    {bs : List Bind} (ha : a.Writes bs) :
    ((r.map u).restrict d missingKey a).Writes (bs ++ r.restrictedBy.flatMap t) := by
  rw [Rows.restrict, Rows.needsKey_map, Rows.restrictedBy]
  split_ifs with needed
  · cases hk : r.key? with
    | none =>
        simp only [Rows.map, hk, Option.map_none]
        exact .fail _
    | some key =>
        have foreign : d ≠ .mysql := by
          intro hd
          rw [Rows.needsKey_eq, plain hd] at needed
          cases needed
        have restricted := Rows.restriction_writes h foreign hk
        simp only [Rows.map, hk, Option.map_some] at restricted ⊢
        simpa using (ha.behind (.fixed " WHERE ")).append restricted
  · exact ha.append (Rows.filters_writes h)

/-- Rows that are a filter of one relation have no other clauses to write in place. -/
theorem Rows.inPlace_writes (plain : r.isPlain = true) :
    ((r.map u).inPlace d).Writes (r.restrictedBy.flatMap t) := by
  rw [Rows.restrictedBy, Rows.needsKey_eq, plain]
  simp only [Rows.isPlain, Bool.and_eq_true, List.isEmpty_iff, Option.isNone_iff_eq_none] at plain
  obtain ⟨⟨⟨-, orders⟩, limit⟩, -⟩ := plain
  have ordered : (ordersDraft (r.map u).orders).Writes [] := by
    simp only [Rows.map, orders]
    exact .nothing
  have limited : (limitDraft d (r.map u).limit? none).Writes [] := by
    simp only [Rows.map, limit]
    exact .nothing
  exact ((Rows.filters_writes h).behind ordered).behind limited

theorem Rows.source_writes (plain : r.isPlain = true) :
    ((r.source.map u).draft d).Writes (r.source.relation?.toList.flatMap t) := by
  have written := r.source.draft_writes d h.source
  simp only [Rows.isPlain, Bool.and_eq_true, List.isEmpty_iff] at plain
  obtain ⟨⟨⟨joins, -⟩, -⟩, -⟩ := plain
  simpa [Source.written, joins] using written

end

/-- Only MySQL writes rows in place. -/
theorem Rows.isPlain_of_isNative {α : Type} {d : Dialect} {r : Rows α}
    (plain : d = .mysql → r.isPlain = true) (native : r.isNative d = true) : r.isPlain = true := by
  cases d with
  | mysql => exact plain rfl
  | _ => cases native

theorem Update.draft_writes (d : Dialect) (s : Update γ)
    (h : ∀ x ∈ (Form.update s).parts, (u x).Writes (t x))
    (plain : d = .mysql → s.rows.isPlain = true) :
    ((s.map u).draft d).Writes ((s.rows.written s.assignments).flatMap t) := by
  obtain ⟨rows, assignments⟩ := s
  simp only [Form.parts, Update.children, List.mem_append] at h
  have parts : rows.Writes u t :=
    ⟨fun x hx => h x (.inl (.inl (.inl hx))), fun x hx => h x (.inl (.inr hx)),
      fun x hx => h x (.inr (Option.mem_toList.mpr hx))⟩
  have assigned : (fixed " SET " ++ Part.list (assignments.map u)).Writes
      (assignments.flatMap t) :=
    .before (.fixed _) (Part.list_writes fun x hx => h x (.inl (.inl (.inr hx))))
  rw [Rows.written, List.flatMap_append, List.flatMap_append]
  simp only [Update.map, Update.draft, Rows.source_map, Source.relation?_map, Rows.isNative_map]
  cases hr : rows.source.relation? with
  | none => exact .fail _
  | some relation =>
      simp only [Option.map_some]
      split_ifs with empty native
      · exact .fail _
      · have rowsPlain := Rows.isPlain_of_isNative plain native
        have source := Rows.source_writes (d := d) parts rowsPlain
        rw [hr] at source
        exact ((Draft.Writes.before (.fixed _) source).append assigned).append
          (Rows.inPlace_writes parts rowsPlain)
      · have target := (parts.source relation (by simp [Source.parts, hr])).item
        refine Rows.restrict_writes parts plain _ ?_
        simpa using (Draft.Writes.before (.fixed "UPDATE ") target).append assigned

theorem Delete.draft_writes (d : Dialect) (s : Delete γ)
    (h : ∀ x ∈ (Form.delete s).parts, (u x).Writes (t x))
    (plain : d = .mysql → s.rows.isPlain = true) :
    ((s.map u).draft d).Writes ((s.rows.written []).flatMap t) := by
  obtain ⟨rows⟩ := s
  simp only [Form.parts, Delete.children, List.mem_append] at h
  have parts : rows.Writes u t :=
    ⟨fun x hx => h x (.inl (.inl hx)), fun x hx => h x (.inl (.inr hx)),
      fun x hx => h x (.inr (Option.mem_toList.mpr hx))⟩
  rw [Rows.written, List.append_nil, List.flatMap_append]
  simp only [Delete.map, Delete.draft, Rows.source_map, Source.relation?_map, Rows.isNative_map]
  cases hr : rows.source.relation? with
  | none => exact .fail _
  | some relation =>
      simp only [Option.map_some]
      split_ifs with native
      · have rowsPlain := Rows.isPlain_of_isNative plain native
        have source := Rows.source_writes (d := d) parts rowsPlain
        rw [hr] at source
        have unnamed : (rows.source.map u).joins.isEmpty = true := by
          simp only [Rows.isPlain, Bool.and_eq_true] at rowsPlain
          simp [Source.map, rowsPlain.1.1.1]
        rw [unnamed]
        exact (Draft.Writes.before (.before (.before (.fixed _) .nothing) (.fixed _)) source).append
          (Rows.inPlace_writes parts rowsPlain)
      · have target := (parts.source relation (by simp [Source.parts, hr])).item
        refine Rows.restrict_writes parts plain _ ?_
        simpa using Draft.Writes.before (.fixed "DELETE FROM ") target

/-! ### All constructs -/

section
variable (d : Dialect) (g : Form γ) (h : ∀ x ∈ g.parts, (u x).Writes (t x))
  (plain : d = .mysql → g.isPlain = true)
include h plain

theorem Form.item_writes :
    ((g.map u).item d).Writes (g.own ++ (g.written fun x => (u x).node).flatMap t) := by
  cases g with
  | table t => exact t.draft_writes
  | tableAlias relation name =>
      exact (((h relation List.mem_cons_self).operand _).behind (.fixed _)).behind (.ident _) |>.one
  | column c => exact c.draft_writes
  | unqualified c => exact .ident _
  | sql text => exact .verbatim _
  | quoted value | casted value _ | param b => exact .slot _
  | bool b => exact .fixed _
  | star => exact .fixed _
  | list items => exact Part.list_writes h
  | unary op operand => exact (op.draft_writes d (h operand List.mem_cons_self)).one
  | binary op left right =>
      exact op.draft_writes (h left (by simp [parts, children]))
        (h right (by simp [parts, children])) d
  | and items => exact conjunction_writes h
  | matching left right escape? sensitive negated =>
      exact (matchingDraft_writes (h left (by simp [parts, children]))
        (h right (by simp [parts, children])) d escape? sensitive negated).two
  | regexp left right sensitive negated =>
      exact (regexpDraft_writes (h left (by simp [parts, children]))
        (h right (by simp [parts, children])) d sensitive negated).two
  | call c => exact c.draft_writes h
  | extract expr field => exact (extractDraft_writes d field (h expr List.mem_cons_self)).one
  | cast expr typeName => exact (castDraft_writes typeName (h expr List.mem_cons_self)).one
  | cases c => exact c.draft_writes h
  | join j => exact j.draft_writes d h
  | sortKey k =>
      exact (k.draft_writes d (h k.expr List.mem_cons_self) fun hd =>
        Option.isNone_iff_eq_none.mp (plain hd)).one
  | windowed expr w =>
      exact overDraft_writes (h expr List.mem_cons_self) w fun x hx =>
        h x (List.mem_cons_of_mem _ hx)
  | window w => exact w.draft_writes h
  | namedWindow w => exact w.draft_writes h
  | cte c => exact (c.draft_writes (h c.relation List.mem_cons_self)).one
  | values rows => exact valuesDraft_writes h
  | select s => exact (s.draft_writes d h).parens
  | insert s => exact s.draft_writes d h
  | update s => exact s.draft_writes d h plain
  | delete s => exact s.draft_writes d h plain

/-- A construct has its slots at every place. -/
theorem Form.draft_writes (place : Place) :
    ((g.map u).draft d place).Writes (g.own ++ (g.written fun x => (u x).node).flatMap t) := by
  have item := Form.item_writes d g h plain
  cases place with
  | item =>
      rw [draft_item]
      exact item
  | statement =>
      rw [draft_statement]
      cases g with
      | select s => exact s.draft_writes d h
      | _ => exact item
  | element =>
      rw [draft_element]
      cases g with
      | unary op operand =>
          cases op with
          | grouping =>
              exact (h operand List.mem_cons_self).item.one
          | _ => exact item
      | _ => exact item
  -- only the conjunction of two has bounds
  | bounds =>
      rw [draft_bounds]
      cases g with
      | and items =>
          rcases items with _ | ⟨low, _ | ⟨high, _ | _⟩⟩
          · exact item
          · exact item
          · exact (boundsDraft_writes (h low (by simp [parts, children]))
              (h high (by simp [parts, children]))).two
          · exact item
      | _ => exact item

end

end

/-! ### Trees -/

namespace Node

/-- The slots of a tree as it is written, whatever the dialect. -/
def slots : Node → List Bind :=
  fold fun form => form.own ++ (form.written (·.1)).flatMap (·.2)

theorem slots_of (form : Form Node) :
    (of form).slots = form.own ++ (form.written fun n => n).flatMap slots := by
  rw [slots, fold_of, Form.own_map, Form.written_map, List.flatMap_map]

theorem slots_of_outline {n : Node} {c : Column} (h : n.outline = .column c) : n.slots = [] := by
  obtain ⟨form⟩ := n
  cases form with
  | column c => rfl
  | unary op _ => cases op <;> cases h
  | and items => rcases items with _ | ⟨_, _ | ⟨_, _ | _⟩⟩ <;> cases h
  | call c => rcases c with ⟨_, _, _, _ | ⟨_, _ | _⟩⟩ <;> cases h
  | _ => cases h

/-- **A tree has its slots** in every dialect; in MySQL, if all its constructs are plain. -/
theorem draft_writes (d : Dialect) (n : Node)
    (plain : d = .mysql → ∀ m ∈ n.subtrees, m.form.isPlain = true) (place : Place) :
    (n.draft d place).Writes n.slots := by
  induction n using Node.induction generalizing place with
  | step form ih =>
      have parts : ∀ n ∈ form.parts, (part d n).Writes n.slots := by
        intro n hn
        exact ⟨ih n hn fun hd m hm => plain hd m (mem_subtrees_of_mem_parts hn hm),
          fun c => slots_of_outline⟩
      rw [draft_of, slots_of]
      exact Form.draft_writes d form parts (fun hd => plain hd _ (self_mem_subtrees _)) place

end Node

end SqlTree
