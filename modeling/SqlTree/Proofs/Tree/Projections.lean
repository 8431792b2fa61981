import SqlTree.Proofs.Tree.Parts

/-!
# SqlTree — Proofs — the items of SELECT lists

A construct may have a SELECT list of its own: a select has one in each of its blocks, and so has
the select of an INSERT.  The key of an UPDATE or a DELETE is written both in the SELECT list of the
keys and as the left side of a membership.

* `Form.projections` and `Form.elsewhere` list the parts of a construct that are items of a SELECT
  list and those that are written anywhere else.  Together they are all parts
  (`Form.mem_parts_iff`).
* `Form.mapSplit` changes the items of SELECT lists in one way and all other subtrees in another.
-/

namespace SqlTree

variable {α β γ : Type}

/-! ### Where the parts of a construct stand -/

/-- The parts of a block that are not in its SELECT list. -/
def Core.elsewhere (c : Core α) : List α :=
  (c.quantifier?.map SetQuantifier.parts).getD [] ++ c.source.parts ++ c.filters ++ c.groups ++
    c.havings ++ c.windows.flatMap (·.window.parts)

namespace Select

/-- The items of the SELECT lists of all blocks. -/
def projections : Select α → List α
  | single core _ => core.projections
  | compound _ left right _ => left.projections ++ right.projections

/-- The parts that are in no SELECT list of the select. -/
def elsewhere : Select α → List α
  | single core modifiers => modifiers.before ++ core.elsewhere ++ modifiers.after
  | compound _ left right modifiers =>
    modifiers.before ++ left.elsewhere ++ right.elsewhere ++ modifiers.after

end Select

def InsertSource.projections : InsertSource α → List α
  | values _ => []
  | select s => s.projections

def InsertSource.elsewhere : InsertSource α → List α
  | values rows => rows.flatten
  | select s => s.elsewhere

namespace Form

/-- The parts that are written as items of a SELECT list. -/
def projections : Form α → List α
  | select s => s.projections
  | insert s => (s.source?.map InsertSource.projections).getD []
  | update s => s.rows.key?.toList
  | delete s => s.rows.key?.toList
  | _ => []

/-- The parts that are written anywhere else. -/
def elsewhere : Form α → List α
  | select s => s.elsewhere
  | insert s => (s.source?.map InsertSource.elsewhere).getD []
  | form => form.parts

/-- An UPDATE or a DELETE. -/
def changesRows : Form α → Bool
  | update _ | delete _ => true
  | _ => false

end Form

theorem Core.mem_parts_iff {c : Core α} {x : α} :
    x ∈ c.parts ↔ x ∈ c.projections ∨ x ∈ c.elsewhere := by
  simp only [Core.parts, Core.children, Core.elsewhere, List.mem_append]
  tauto

theorem Select.mem_parts_iff {x : α} :
    ∀ {s : Select α}, x ∈ s.parts ↔ x ∈ s.projections ∨ x ∈ s.elsewhere
  | .single core m => by
      simp only [Select.parts, Select.projections, Select.elsewhere, List.mem_append,
        Core.mem_parts_iff]
      tauto
  | .compound _ left right m => by
      simp only [Select.parts, Select.projections, Select.elsewhere, List.mem_append,
        left.mem_parts_iff, right.mem_parts_iff]
      tauto

/-- Every part of a construct is written in a SELECT list or elsewhere. -/
theorem Form.mem_parts_iff {form : Form α} {x : α} :
    x ∈ form.parts ↔ x ∈ form.projections ∨ x ∈ form.elsewhere := by
  cases form with
  | select s => exact Select.mem_parts_iff
  | insert s =>
      obtain ⟨_, _, _ | rows | s⟩ := s
      · simp [parts, projections, elsewhere]
      · simp [parts, projections, elsewhere, InsertSource.parts, InsertSource.projections,
          InsertSource.elsewhere]
      · exact Select.mem_parts_iff
  | update s | delete s =>
      simp only [parts, projections, elsewhere, List.mem_append]
      tauto
  | _ => simp [projections, elsewhere]

/-! ### One change for SELECT lists and another one elsewhere -/

/-- The block with the items of its SELECT list changed by the first function and all other subtrees
by the second. -/
def Core.mapSplit (f g : α → β) (c : Core α) : Core β :=
  { c.map g with projections := c.projections.map f }

def Select.mapSplit (f g : α → β) : Select α → Select β
  | .single core modifiers => .single (core.mapSplit f g) (modifiers.map g)
  | .compound op left right modifiers =>
    .compound op (left.mapSplit f g) (right.mapSplit f g) (modifiers.map g)

def InsertSource.mapSplit (f g : α → β) : InsertSource α → InsertSource β
  | values rows => .values (rows.map (·.map g))
  | select s => .select (s.mapSplit f g)

/-- The construct with the items of its SELECT lists changed by the first function and all other
subtrees by the second. -/
def Form.mapSplit (f g : α → β) : Form α → Form β
  | select s => .select (s.mapSplit f g)
  | insert s => .insert ⟨s.table?, s.columns, s.source?.map (·.mapSplit f g)⟩
  | form => form.map g

section
variable (f g : α → β) (h : β → γ)

theorem Core.map_mapSplit (c : Core α) :
    (c.mapSplit f g).map h = c.mapSplit (fun x => h (f x)) fun x => h (g x) := by
  simp [Core.mapSplit, Core.map, Function.comp_def]

theorem Select.map_mapSplit : ∀ s : Select α,
    (s.mapSplit f g).map h = s.mapSplit (fun x => h (f x)) fun x => h (g x)
  | .single core m => by simp [Select.mapSplit, Select.map, Core.map_mapSplit]
  | .compound _ left right m => by
      simp [Select.mapSplit, Select.map, Select.map_mapSplit left, Select.map_mapSplit right]

theorem InsertSource.map_mapSplit : ∀ s : InsertSource α,
    (s.mapSplit f g).map h = s.mapSplit (fun x => h (f x)) fun x => h (g x)
  | .values _ => by simp [InsertSource.mapSplit, InsertSource.map, Function.comp_def]
  | .select s => congrArg InsertSource.select (s.map_mapSplit f g h)

theorem Form.map_mapSplit (form : Form α) :
    (form.mapSplit f g).map h = form.mapSplit (fun x => h (f x)) fun x => h (g x) := by
  have uniform := form.map_map g h
  cases form with
  | select s => exact congrArg Form.select (s.map_mapSplit f g h)
  | insert s =>
      simp [mapSplit, map, Insert.map, InsertSource.map_mapSplit, Function.comp_def]
  | _ => exact uniform

end

section
variable (h : α → β) (f g : β → γ)

theorem Core.mapSplit_map (c : Core α) :
    (c.map h).mapSplit f g = c.mapSplit (fun x => f (h x)) fun x => g (h x) := by
  simp [Core.mapSplit, Core.map, Function.comp_def]

theorem Select.mapSplit_map : ∀ s : Select α,
    (s.map h).mapSplit f g = s.mapSplit (fun x => f (h x)) fun x => g (h x)
  | .single core m => by simp [Select.mapSplit, Select.map, Core.mapSplit_map]
  | .compound _ left right m => by
      simp [Select.mapSplit, Select.map, Select.mapSplit_map left, Select.mapSplit_map right]

theorem InsertSource.mapSplit_map : ∀ s : InsertSource α,
    (s.map h).mapSplit f g = s.mapSplit (fun x => f (h x)) fun x => g (h x)
  | .values _ => by simp [InsertSource.mapSplit, InsertSource.map, Function.comp_def]
  | .select s => congrArg InsertSource.select (s.mapSplit_map h f g)

theorem Form.mapSplit_map (form : Form α) :
    (form.map h).mapSplit f g = form.mapSplit (fun x => f (h x)) fun x => g (h x) := by
  have uniform := form.map_map h g
  cases form with
  | select s => exact congrArg Form.select (s.mapSplit_map h f g)
  | insert s =>
      simp [mapSplit, map, Insert.map, InsertSource.mapSplit_map, Function.comp_def]
  | _ => exact uniform

end

section
variable (f : α → β)

theorem Select.mapSplit_self : ∀ s : Select α, s.mapSplit f f = s.map f
  | .single _ _ => rfl
  | .compound _ left right _ => by
      rw [Select.mapSplit, left.mapSplit_self, right.mapSplit_self, Select.map]

theorem InsertSource.mapSplit_self : ∀ s : InsertSource α, s.mapSplit f f = s.map f
  | .values _ => rfl
  | .select s => congrArg InsertSource.select (s.mapSplit_self f)

/-- The same change everywhere. -/
theorem Form.mapSplit_self (form : Form α) : form.mapSplit f f = form.map f := by
  cases form with
  | select s => exact congrArg Form.select (s.mapSplit_self f)
  | insert s => simp [mapSplit, map, Insert.map, InsertSource.mapSplit_self]
  | _ => rfl

end

section
variable (f g : α → β)

theorem Core.elsewhere_map (c : Core α) : (c.map g).elsewhere = c.elsewhere.map g := by
  cases hq : c.quantifier? <;>
    simp [Core.elsewhere, Core.map, NamedWindow.map, List.flatMap_map, List.map_flatMap, hq]

theorem Select.projections_mapSplit :
    ∀ s : Select α, (s.mapSplit f g).projections = s.projections.map f
  | .single _ _ => rfl
  | .compound _ left right _ => by
      simp [Select.mapSplit, Select.projections, left.projections_mapSplit,
        right.projections_mapSplit]

theorem Select.elsewhere_mapSplit :
    ∀ s : Select α, (s.mapSplit f g).elsewhere = s.elsewhere.map g
  | .single core m => by
      have block : (core.mapSplit f g).elsewhere = core.elsewhere.map g := core.elsewhere_map g
      simp [Select.mapSplit, Select.elsewhere, block]
  | .compound _ left right _ => by
      simp [Select.mapSplit, Select.elsewhere, left.elsewhere_mapSplit, right.elsewhere_mapSplit]

/-- The items of SELECT lists are changed by the first function, if the key of rows is not one. -/
theorem Form.projections_mapSplit {form : Form α} (keyless : form.changesRows = false) :
    (form.mapSplit f g).projections = form.projections.map f := by
  cases form with
  | select s => exact s.projections_mapSplit f g
  | insert s =>
      obtain ⟨_, _, _ | rows | s⟩ := s
      · rfl
      · rfl
      · exact s.projections_mapSplit f g
  | update s | delete s => cases keyless
  | _ => rfl

/-- The other subtrees are changed by the second function. -/
theorem Form.elsewhere_mapSplit (form : Form α) :
    (form.mapSplit f g).elsewhere = form.elsewhere.map g := by
  have all := form.parts_map g
  cases form with
  | select s => exact s.elsewhere_mapSplit f g
  | insert s =>
      obtain ⟨_, _, _ | rows | s⟩ := s
      · rfl
      · simp [mapSplit, elsewhere, InsertSource.mapSplit, InsertSource.elsewhere, List.map_flatten]
      · exact s.elsewhere_mapSplit f g
  | _ => exact all

/-- Every part has been changed in one of the two ways. -/
theorem Form.exists_of_mem_parts_mapSplit {f g : α → β} {form : Form α}
    (keyless : form.changesRows = false) {x : β} (h : x ∈ (form.mapSplit f g).parts) :
    ∃ y ∈ form.parts, x = f y ∨ x = g y := by
  rw [mem_parts_iff, projections_mapSplit f g keyless, elsewhere_mapSplit] at h
  obtain h | h := h
  · obtain ⟨y, hy, rfl⟩ := List.mem_map.mp h
    exact ⟨y, mem_parts_iff.mpr (.inl hy), .inl rfl⟩
  · obtain ⟨y, hy, rfl⟩ := List.mem_map.mp h
    exact ⟨y, mem_parts_iff.mpr (.inr hy), .inr rfl⟩

end

end SqlTree
