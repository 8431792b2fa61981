import SqlTree.Expr.Function
import SqlTree.Proofs.Mutation.Restriction
import SqlTree.Proofs.Writing.Uniform.Node

/-!
# SqlTree — Proofs — implicit names

The implicit name of a call shows where the call itself is an item of a SELECT list, and nowhere
else.  A tree can say so by itself: `Node.explicit` gives every call that is such an item its name
as an explicit one, at any depth, and takes it away from all other calls.

* `Node.explicit_written`: no implicit name is left, and what is written is the same.

UPDATE and DELETE are left out: their key is written both as an item of a SELECT list and as the
left side of a membership, with its implicit name in the one place and without it in the other.
-/

namespace SqlTree
open Draft

namespace Call
variable {α : Type}

/-- The call with its implicit name, if it has one, made explicit. -/
def shown (c : Call α) : Call α := { c with alias? := c.alias?.map fun a => ⟨a.name, false⟩ }

/-- The call without its implicit name. -/
def bare (c : Call α) : Call α := { c with alias? := c.alias?.filter fun a => !a.isImplicit }

end Call

theorem Part.Similar.trans {p q r : Part} (h : Similar Eq p q) (h' : Similar Eq q r) :
    Similar Eq p r :=
  ⟨h.outline.trans h'.outline, h.strength.trans h'.strength,
    fun place => (h.draft place).trans (h'.draft place)⟩

/-- A call with an implicit name. -/
def Form.hasImplicitName {α : Type} : Form α → Bool
  | call c => c.alias?.any (·.isImplicit)
  | _ => false

namespace Node

/-- A call with its implicit name made explicit; any other tree as it is. -/
def shown : Node → Node
  | of (.call c) => of (.call c.shown)
  | n => n

/-- A call without its implicit name; any other tree as it is. -/
def bare : Node → Node
  | of (.call c) => of (.call c.bare)
  | n => n

/-- Below the root: calls that are items of a SELECT list with their implicit names made explicit,
all others without them. -/
def explicitBelow : Node → Node :=
  fold fun form => of (form.mapSplit (fun x => x.2.shown) fun x => x.2.bare)

/-- The tree with the implicit names made explicit where they show and left out where they do not.
The root is no item of a SELECT list. -/
def explicit (n : Node) : Node := n.explicitBelow.bare

theorem explicitBelow_of (form : Form Node) : (of form).explicitBelow =
    of (form.mapSplit (fun n => n.explicitBelow.shown) fun n => n.explicitBelow.bare) := by
  rw [explicitBelow, fold_of, Form.mapSplit_map]

/-! ### One call with and without its name -/

theorem outline_bare (n : Node) : n.bare.outline = n.outline.bare := by
  obtain ⟨form⟩ := n
  cases form with
  | unary op _ => cases op <;> rfl
  | and items => rcases items with _ | ⟨_, _ | ⟨_, _ | _⟩⟩ <;> rfl
  | call c => rcases c with ⟨_, _, _, _ | ⟨_, _ | _⟩⟩ <;> rfl
  | _ => rfl

theorem strength_bare (n : Node) : n.bare.strength = n.strength := by
  obtain ⟨form⟩ := n
  cases form <;> rfl

/-- Without its implicit name a call is written in the same way. -/
theorem draft_bare (d : Dialect) (n : Node) (place : Place) :
    n.bare.draft d place = n.draft d place := by
  obtain ⟨form⟩ := n
  cases form with
  | call c =>
      rw [bare, draft_of, draft_of]
      rcases c with ⟨_, _, _, _ | ⟨_, _ | _⟩⟩ <;> rfl
  | _ => rfl

/-- Made explicit, the name shows in a SELECT list as it did before. -/
theorem projection_shown (d : Dialect) (n : Node) :
    (n.shown.part d).projection = (n.part d).projection := by
  obtain ⟨form⟩ := n
  cases form with
  | call c =>
      rw [shown, part, part, draft_of, draft_of]
      rcases c with ⟨_, _, _, _ | ⟨_, _ | _⟩⟩ <;> rfl
  | _ => rfl

theorem bare_similar (d : Dialect) (n : Node) :
    Part.Similar Eq (n.bare.part d) (n.part d) where
  outline := by
    show n.bare.outline.bare = n.outline.bare
    rw [outline_bare]
    cases n.outline <;> rfl
  strength := n.strength_bare
  draft := n.draft_bare d

/-! ### All calls of a tree -/

theorem outline_mapSplit (f g : Node → Node) (form : Form Node) :
    (of (form.mapSplit f g)).outline = (of form).outline := by
  cases form with
  | unary op _ => cases op <;> rfl
  | list items => cases items <;> rfl
  | and items => rcases items with _ | ⟨_, _ | ⟨_, _ | _⟩⟩ <;> rfl
  | call c => rcases c with ⟨_, _, _, _ | ⟨_, _ | _⟩⟩ <;> rfl
  | _ => rfl

/-- Only a conjunction of one item looks into its parts to tell how tightly it binds. -/
theorem strength_mapSplit {f g : Node → Node} {form : Form Node}
    (h : ∀ n ∈ form.parts, (g n).strength = n.strength) :
    (of (form.mapSplit f g)).strength = (of form).strength := by
  cases form with
  | and items =>
      rcases items with _ | ⟨only, _ | _⟩
      · rfl
      · exact h only (List.mem_singleton_self only)
      · rfl
  | _ => rfl

/-- **A construct is written as before** if the items of its SELECT lists are written there as
before and all its other parts are similar to what they were. -/
theorem draft_mapSplit (d : Dialect) {f g : Node → Node} {form : Form Node}
    (keyless : form.changesRows = false)
    (shown : ∀ n ∈ form.parts, ((f n).part d).projection = (n.part d).projection)
    (elsewhere : ∀ n ∈ form.parts, Part.Similar Eq ((g n).part d) (n.part d)) (place : Place) :
    (of (form.mapSplit f g)).draft d place = (of form).draft d place := by
  -- both constructs are one construct of pairs, seen from its two sides
  let pairs : Form (Part × Part) :=
    form.mapSplit (fun n => ((f n).part d, n.part d)) fun n => ((g n).part d, n.part d)
  have after : pairs.map Prod.fst = (form.mapSplit f g).map (part d) := by
    rw [Form.map_mapSplit, Form.map_mapSplit]
  have before : pairs.map Prod.snd = form.map (part d) := by
    rw [Form.map_mapSplit, Form.mapSplit_self]
  rw [draft_of, draft_of, ← after, ← before]
  refine pairs.draft_split congruence_eq d (fun x hx => ?_) (fun x hx => ?_) (fun _ _ => rfl)
    (fun _ _ => ⟨rfl, rfl⟩) (fun _ _ => rfl) place
  · rw [Form.projections_mapSplit _ _ keyless] at hx
    obtain ⟨n, hn, rfl⟩ := List.mem_map.mp hx
    exact shown n (Form.mem_parts_iff.mpr (.inl hn))
  · rw [Form.elsewhere_mapSplit] at hx
    obtain ⟨n, hn, rfl⟩ := List.mem_map.mp hx
    exact elsewhere n (Form.mem_parts_iff.mpr (.inr hn))

/-- At any depth: with explicit names a tree looks as before and is written as before. -/
theorem explicitBelow_alike (d : Dialect) (n : Node)
    (keyless : ∀ m ∈ n.subtrees, m.form.changesRows = false) :
    Part.Alike Eq (n.explicitBelow.part d) (n.part d) := by
  induction n using Node.induction with
  | step form ih =>
      have parts : ∀ n ∈ form.parts, Part.Alike Eq (n.explicitBelow.part d) (n.part d) :=
        fun n hn => ih n hn fun m hm => keyless m (mem_subtrees_of_mem_parts hn hm)
      have shown : ∀ n ∈ form.parts,
          (n.explicitBelow.shown.part d).projection = (n.part d).projection := by
        intro n hn
        exact (n.explicitBelow.projection_shown d).trans ((parts n hn).projection congruence_eq)
      have elsewhere : ∀ n ∈ form.parts,
          Part.Similar Eq (n.explicitBelow.bare.part d) (n.part d) := by
        intro n hn
        exact (n.explicitBelow.bare_similar d).trans (parts n hn).similar
      rw [explicitBelow_of]
      refine ⟨outline_mapSplit _ _ form, ?_, ?_, fun _ _ => rfl⟩
      · exact strength_mapSplit fun n hn => (elsewhere n hn).strength
      · exact draft_mapSplit d (keyless (of form) (self_mem_subtrees _)) shown elsewhere

/-! ### No implicit name is left -/

theorem hasImplicitName_shown (n : Node) : n.shown.form.hasImplicitName = false := by
  obtain ⟨form⟩ := n
  cases form with
  | call c => rcases c with ⟨_, _, _, _ | _⟩ <;> rfl
  | _ => rfl

theorem hasImplicitName_bare (n : Node) : n.bare.form.hasImplicitName = false := by
  obtain ⟨form⟩ := n
  cases form with
  | call c => rcases c with ⟨_, _, _, _ | ⟨_, _ | _⟩⟩ <;> rfl
  | _ => rfl

theorem parts_shown (n : Node) : n.shown.form.parts = n.form.parts := by
  obtain ⟨form⟩ := n
  cases form <;> rfl

theorem parts_bare (n : Node) : n.bare.form.parts = n.form.parts := by
  obtain ⟨form⟩ := n
  cases form <;> rfl

/-- Below the root no call has an implicit name. -/
theorem hasImplicitName_below (n : Node) (keyless : ∀ m ∈ n.subtrees, m.form.changesRows = false) :
    ∀ p ∈ n.explicitBelow.form.parts, ∀ m ∈ p.subtrees, m.form.hasImplicitName = false := by
  induction n using Node.induction with
  | step form ih =>
      intro p hp
      rw [explicitBelow_of] at hp
      obtain ⟨n, hn, side⟩ :=
        Form.exists_of_mem_parts_mapSplit (keyless (of form) (self_mem_subtrees _)) hp
      have below := ih n hn fun m hm => keyless m (mem_subtrees_of_mem_parts hn hm)
      obtain ⟨root, parts⟩ : p.form.hasImplicitName = false ∧
          p.form.parts = n.explicitBelow.form.parts := by
        obtain rfl | rfl := side
        · exact ⟨hasImplicitName_shown _, parts_shown _⟩
        · exact ⟨hasImplicitName_bare _, parts_bare _⟩
      intro m hm
      obtain rfl | ⟨q, hq, hm⟩ := mem_subtrees_iff.mp hm
      · exact root
      · exact below q (parts ▸ hq) m hm

/-- **Implicit names show in SELECT lists only**: the tree in which the name of every call that is
an item of a SELECT list is explicit, and in which no other call has an implicit name, is written as
the tree itself, inline and compiled. -/
theorem explicit_written (n : Node) (keyless : ∀ m ∈ n.subtrees, m.form.changesRows = false) :
    (∀ m ∈ n.explicit.subtrees, m.form.hasImplicitName = false) ∧
      ∀ d, n.explicit.toSql d = n.toSql d ∧ n.explicit.compile d = n.compile d := by
  refine ⟨fun m hm => ?_, fun d => ?_⟩
  · obtain rfl | ⟨p, hp, hm⟩ := mem_subtrees_iff.mp hm
    · exact hasImplicitName_bare _
    · exact hasImplicitName_below n keyless p (parts_bare n.explicitBelow ▸ hp) m hm
  · have written : n.explicit.draft d .statement = n.draft d .statement :=
      (draft_bare d _ _).trans ((explicitBelow_alike d n keyless).draft .statement)
    simp only [toSql, compile, written, and_self]

/-- The name of a count shows in the SELECT list, and neither in HAVING nor in ORDER BY. -/
theorem explicit_written_of_count :
    let id : Column := ⟨⟨"t", none⟩, "id"⟩
    let count (alias? : Option CallAlias) : Node :=
      of (.call ⟨.count, [of (.column id)], false, alias?⟩)
    let counted (item elsewhere : Node) : Node := of (.select (.single
      { projections := [item]
        havings := [binary .greaterThan elsewhere (quoted (.integer 5))]
        source := ⟨some (of (.table ⟨"t", none⟩)), []⟩ }
      { orders := [elsewhere.sortedBy .desc] }))
    let implicit := aggregate .count false (of (.column id))
    let n := counted implicit implicit
    n.explicit = counted (count (some ⟨"count_id", false⟩)) (count none) ∧
      (∀ m ∈ n.explicit.subtrees, m.form.hasImplicitName = false) ∧
      n.explicit.toSql .postgresql = n.toSql .postgresql ∧
      n.toSql .postgresql = .ok ("SELECT COUNT(\"t\".\"id\") AS count_id FROM \"t\" " ++
        "HAVING COUNT(\"t\".\"id\") > 5 ORDER BY COUNT(\"t\".\"id\") DESC") := by
  intro id count counted implicit n
  have keyless : ∀ m ∈ n.subtrees, m.form.changesRows = false := by decide
  have written := explicit_written n keyless
  have name : implicitAlias .count id = some ⟨"count_id", true⟩ := by decide +kernel
  have named : implicit = count (some ⟨"count_id", true⟩) := congrArg count name
  have made : n.explicit = counted (count (some ⟨"count_id", false⟩)) (count none) := by
    show (counted implicit implicit).explicit = _
    rw [named]
    rfl
  exact ⟨made, written.1, (written.2 .postgresql).1, by decide +kernel⟩

end Node

end SqlTree
