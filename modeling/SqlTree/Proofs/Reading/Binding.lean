import SqlTree.Proofs.Reading.Independence

/-!
# SqlTree — Proofs — binding before and after

Values for named parameters may be put into a tree, or into the query that the tree is compiled to.
Either way the tree is written the same: with other values it is a tree that is the same but for its
values (`Node.sameButValues_bindAll`), and each of its slots is the slot it was, filled
(`Node.leaves_bindAll`).

* `Node.compile_bindAll`: the tree with values is compiled to the query with the values, or refused
  as the tree is.
-/

namespace SqlTree

/-! ### Values by name -/

/-- The value that the pairs have for a name: of several the last one. -/
def valueOf? (pairs : List (String × Value)) (name : String) : Option Value :=
  pairs.reverse.lookup name

/-- The slot with the value of its name in place of its own, if there is one. -/
def Bind.fill (pairs : List (String × Value)) (b : Bind) : Bind :=
  ⟨b.name?, (b.name?.bind (valueOf? pairs)).or b.value?⟩

/-- The tree with the value of its name in every parameter, wherever it stands. -/
def Node.bindAll (pairs : List (String × Value)) : Node → Node := fold fun
  | .param b => of (.param (b.fill pairs))
  | form => of (form.map (·.2))

theorem find?_eq_lookup {α : Type} (name : String) : ∀ pairs : List (String × α),
    (pairs.find? (·.1 == name)).map (·.2) = pairs.lookup name
  | [] => rfl
  | (other, v) :: pairs => by
      by_cases h : other = name
      · subst h
        simp
      · have differs : (name == other) = false := beq_eq_false_iff_ne.mpr (Ne.symm h)
        rw [List.find?_cons_of_neg (by simpa using h), find?_eq_lookup name pairs, List.lookup_cons,
          differs]

variable (pairs : List (String × Value))

/-- To bind all pairs is to fill every slot. -/
theorem Query.bindAll_eq (q : Query) :
    q.bindAll pairs = ⟨q.sql, q.binds.map (Bind.fill pairs), q.style⟩ := by
  refine congrArg (Query.mk q.sql · q.style) (List.map_congr_left fun b _ => ?_)
  simp only [find?_eq_lookup]
  show _ = Bind.mk b.name? ((b.name?.bind fun name => pairs.reverse.lookup name).or b.value?)
  cases b.name?.bind fun name => pairs.reverse.lookup name <;> rfl

/-! ### The tree with values -/

namespace Node

theorem bindAll_param (b : Bind) : (of (.param b)).bindAll pairs = of (.param (b.fill pairs)) := rfl

/-- Every construct but a parameter is kept, with values in its subtrees. -/
theorem bindAll_of {form : Form Node} (h : ¬∃ b, form = .param b) :
    (of form).bindAll pairs = of (form.map (bindAll pairs)) := by
  rw [bindAll, fold_of]
  cases form with
  | param b => exact absurd ⟨b, rfl⟩ h
  | _ => exact congrArg of (Form.map_map _ _ _)

theorem sameButValues_bindAll (n : Node) : SameButValues n (n.bindAll pairs) := by
  induction n using Node.induction with
  | step form ih =>
      by_cases h : ∃ b, form = .param b
      · obtain ⟨b, rfl⟩ := h
        exact .param b.name? b.value? _
      · have parts : ∀ p ∈ (form.map fun n => (n, n.bindAll pairs)).parts,
            SameButValues p.1 p.2 := by
          intro p hp
          rw [Form.parts_map] at hp
          obtain ⟨n, hn, rfl⟩ := List.mem_map.mp hp
          exact ih n hn
        have both := SameButValues.construct _ parts
        rw [bindAll_of pairs h]
        rwa [Form.map_map, Form.map_map, Form.map_id] at both

theorem leaves_bindAll (n : Node) : (n.bindAll pairs).leaves = n.leaves.map (Bind.fill pairs) := by
  induction n using Node.induction with
  | step form ih =>
      by_cases h : ∃ b, form = .param b
      · obtain ⟨b, rfl⟩ := h
        rw [bindAll_param, leaves_of, leaves_of]
        rfl
      · -- a value that is no parameter has no name
        have own : form.own = form.own.map (Bind.fill pairs) := by
          cases form with
          | param b => exact absurd ⟨b, rfl⟩ h
          | _ => rfl
        rw [bindAll_of pairs h, leaves_of, leaves_of, Form.own_map, Form.parts_map,
          List.flatMap_map, List.map_append, List.map_flatMap, ← own, List.flatMap_congr ih]

/-- A leaf and the corresponding one of the tree with values. -/
theorem eq_fill_of_mem_zip (n : Node) :
    ∀ p ∈ n.leaves.zip (n.bindAll pairs).leaves, p.2 = p.1.fill pairs := by
  intro p hp
  rw [leaves_bindAll, ← List.map_prod_left_eq_zip] at hp
  obtain ⟨b, -, rfl⟩ := List.mem_map.mp hp
  rfl

/-- **Binding before is binding after.**  A tree with values in its parameters is refused with the
error of the tree itself, or it is compiled to the query of the tree with the same values bound. -/
theorem compile_bindAll (d : Dialect) (n : Node) :
    (n.bindAll pairs).compile d = (n.compile d).map (·.bindAll pairs) := by
  have written := (sameButValues_bindAll pairs n).draft_matching
    (R := fun b c => c = b.fill pairs) d (eq_fill_of_mem_zip pairs n) .statement
  simp only [compile, Draft.compile, ← written.fault?]
  cases (n.draft d .statement).fault? with
  | some e => rfl
  | none =>
      have text := numbered_matching written.lexemes d d.placeholderStyle
        (fun b c h => by rw [h]; rfl) 1
      have slots : Query.slots ((n.bindAll pairs).draft d .statement).lexemes =
          (Query.slots (n.draft d .statement).lexemes).map (Bind.fill pairs) :=
        List.forall₂_eq_eq_eq ▸
          List.forall₂_map_right_iff.mpr (slots_matching written.lexemes).flip
      show Except.ok (Query.ofLexemes _ _ _) = Except.ok (Query.bindAll pairs _)
      rw [Query.bindAll_eq, Query.ofLexemes, ← text, slots]
      rfl

end Node

end SqlTree
