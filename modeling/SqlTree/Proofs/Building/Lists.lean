import SqlTree.Proofs.Building.Run
import SqlTree.Proofs.Reading.Around

/-!
# SqlTree — Proofs — clauses given as lists

Several clauses of a select are given as lists, and a later call makes the list longer.  Two calls
one after the other leave the builder that one call with both lists leaves
(`ListClause.after_after`), and a call without items changes nothing (`ListClause.after_nil`), with
one exception: a WITH clause is made by the first call that asks for it, whatever is in its list
(`History.with?_builder`), and an empty one is written like any other.

* `History.lists_in_turn`: what calls with lists come to on every builder that is not compound, and
  what the calls for common table expressions write when there are none.
-/

namespace SqlTree
open Draft

/-! ### One change after another -/

namespace SelectBuilder

variable (b : SelectBuilder)

theorem edit_edit (clause : Clause) (f g : Core Node → Core Node) :
    edit clause g (edit clause f b) = edit clause (fun core => g (f core)) b := by
  obtain ⟨⟨core, m⟩ | ⟨op, left, right, m⟩, fault?⟩ := b
  · rfl
  -- the same clause is misplaced twice, and the first time is remembered
  · cases fault? <;> rfl

theorem modify_modify (f g : Modifiers Node → Modifiers Node) :
    modify g (modify f b) = modify (fun m => g (f m)) b := by
  obtain ⟨⟨core, m⟩ | ⟨op, left, right, m⟩, fault?⟩ := b <;> rfl

end SelectBuilder

/-! ### Calls that take lists -/

/-- A clause that is given as a list. -/
inductive ListClause where
  | projections
  | groups
  | orders
  | hints
  | ctes (isRecursive : Bool)

namespace ListClause

/-- What the clause is a list of. -/
abbrev Item : ListClause → Type
  | projections | groups | orders => Node
  | hints => String
  | ctes _ => Cte Node

/-- The call that adds the items. -/
def step : (c : ListClause) → List c.Item → Step
  | projections, items => .core (.project items)
  | groups, items => .core (.group items)
  | orders, items => .whole (.order items)
  | hints, items => .core (.hints items)
  | ctes isRecursive, items => .whole (.addCtes isRecursive items)

variable (b : SelectBuilder)

/-- **Two lists one after the other are one list.** -/
theorem after_after (c : ListClause) (xs ys : List c.Item) :
    (c.step ys).after ((c.step xs).after b) = (c.step (xs ++ ys)).after b := by
  cases c with
  | projections | groups | hints =>
      refine (SelectBuilder.edit_edit b _ _ _).trans (congrArg (SelectBuilder.edit _ · b) ?_)
      funext core
      simp only [List.append_assoc]
  | orders =>
      refine (SelectBuilder.modify_modify b _ _).trans (congrArg (SelectBuilder.modify · b) ?_)
      funext m
      simp only [List.append_assoc]
  | ctes isRecursive =>
      refine (SelectBuilder.modify_modify b _ _).trans (congrArg (SelectBuilder.modify · b) ?_)
      funext m
      simp only [Option.getD_some, List.append_assoc, Bool.or_assoc, Bool.or_self]

/-- A list without items changes nothing in a select with one block. -/
theorem after_nil {c : ListClause} (other : ∀ isRecursive, c ≠ .ctes isRecursive)
    (single : b.isCompound = false) : (c.step []).after b = b := by
  obtain ⟨⟨core, m⟩ | _, fault?⟩ := b
  · cases c with
    | projections | groups | hints =>
        simp [step, Step.after, afterCall, Step.call, CoreStep.call, SelectBuilder.project,
          SelectBuilder.group, SelectBuilder.hints, SelectBuilder.edit]
    | orders =>
        simp [step, Step.after, afterCall, Step.call, WholeStep.call, SelectBuilder.order,
          SelectBuilder.modify, Select.mapModifiers]
    | ctes isRecursive => exact absurd rfl (other isRecursive)
  · cases single

end ListClause

/-! ### The WITH clause -/

/-- The common table expressions that a call adds, and whether it asks for recursion. -/
def Step.ctes? : Step → Option (Bool × List (Cte Node))
  | core _ | constraint _ => none
  | whole (.addCtes isRecursive ctes) => some (isRecursive, ctes)
  | whole (.order _) | whole (.take _) | whole (.skip _) | whole (.lock _) => none

/-- The calls on the select since it was made that ask for a WITH clause. -/
def History.withCalls : History → List (Bool × List (Cte Node))
  | new | combine .. => []
  | call h s => h.withCalls ++ s.ctes?.toList

/-- The clause that the calls make: once recursive it stays so, and the lists follow each other. -/
def With.ofCalls : List (Bool × List (Cte Node)) → Option (With Node)
  | [] => none
  | calls => some ⟨calls.any (·.1), calls.flatMap (·.2)⟩

theorem With.ofCalls_concat (calls : List (Bool × List (Cte Node))) (isRecursive : Bool)
    (ctes : List (Cte Node)) :
    ofCalls (calls ++ [(isRecursive, ctes)]) =
      let earlier := (ofCalls calls).getD ⟨false, []⟩
      some ⟨earlier.isRecursive || isRecursive, earlier.ctes ++ ctes⟩ := by
  cases calls with
  | nil => simp [ofCalls]
  | cons call calls => simp [ofCalls, Bool.or_assoc]

/-- Only the calls that ask for it change the WITH clause. -/
theorem Step.with?_after (s : Step) (b : SelectBuilder) :
    (s.after b).select.modifiers.with? =
      match s.ctes? with
      | none => b.select.modifiers.with?
      | some (isRecursive, ctes) =>
        let earlier := b.select.modifiers.with?.getD ⟨false, []⟩
        some ⟨earlier.isRecursive || isRecursive, earlier.ctes ++ ctes⟩ := by
  cases s with
  | core s =>
      obtain ⟨f, hf⟩ := s.exists_edit
      obtain ⟨⟨core, m⟩ | _, fault?⟩ := b <;> rw [after, afterCall, call, hf] <;> rfl
  | constraint s =>
      obtain ⟨f, hf⟩ := s.exists_constrain
      obtain ⟨⟨core, m⟩ | _, fault?⟩ := b
      · simp only [after, afterCall, call, hf, SelectBuilder.constrain]
        cases f core.source <;> rfl
      · rw [after, afterCall, call, hf]
        rfl
  | whole s =>
      obtain ⟨⟨core, m⟩ | _, fault?⟩ := b <;> cases s <;> rfl

theorem History.with?_builder : ∀ h : History,
    h.builder.select.modifiers.with? = With.ofCalls h.withCalls
  | new | combine .. => rfl
  | call h s => by
      rw [builder, Step.with?_after, with?_builder h, withCalls]
      cases s.ctes? with
      | none => rw [Option.toList_none, List.append_nil]
      | some added => exact (With.ofCalls_concat h.withCalls added.1 added.2).symm

/-! ### What is written -/

/-- The words of a WITH clause. -/
def With.keyword (isRecursive : Bool) : String := if isRecursive then "WITH RECURSIVE " else "WITH "

namespace SelectBuilder

variable (d : Dialect)

/-- The select with a WITH clause in place of its own. -/
def withClause (w? : Option (With Node)) (b : SelectBuilder) : SelectBuilder :=
  b.modify fun m => { m with with? := w? }

/-- A builder with one block and no fault is written as its block among its clauses. -/
theorem draft_single (core : Core Node) (m : Modifiers Node) :
    SelectBuilder.draft d ⟨.single core m, none⟩ =
      (m.map (Node.part d)).around d ((core.map (Node.part d)).draft d) :=
  Node.draft_select_statement d (.single core m)

section
variable {b : SelectBuilder} (single : b.isCompound = false) (faultless : b.fault? = none)
include single faultless

/-- The WITH clause comes first, before what is written without it. -/
theorem draft_withClause (w : With Node) :
    (b.withClause (some w)).draft d = fixed (With.keyword w.isRecursive) ++
      (sepBy ", " (w.ctes.map fun c => (c.map (Node.part d)).draft) ++ fixed " " ++
        (b.withClause none).draft d) := by
  obtain ⟨⟨core, m⟩ | _, fault?⟩ := b
  · obtain rfl : fault? = none := faultless
    rw [withClause, withClause, modify, modify, Select.mapModifiers, Select.mapModifiers,
      draft_single, draft_single]
    simp only [Modifiers.around, Modifiers.map, With.map, Option.map_some, Option.map_none,
      Option.getD_some, Option.getD_none, With.draft, List.map_map, Function.comp_def,
      nothing_append, append_assoc, With.keyword]
  · cases single

/-- Without a WITH clause the block comes first. -/
theorem exists_draft_withoutClause :
    ∃ rest, (b.withClause none).draft d = fixed "SELECT" ++ rest := by
  obtain ⟨⟨core, m⟩ | _, fault?⟩ := b
  · obtain rfl : fault? = none := faultless
    rw [withClause, modify, Select.mapModifiers, draft_single]
    simp only [Modifiers.around, Modifiers.map, Option.map_none, Option.getD_none, nothing_append,
      Core.draft, append_assoc]
    exact ⟨_, rfl⟩
  · cases single

end

end SelectBuilder

/-! ### What is read -/

namespace Draft

variable {d : Dialect} {word : String} {rest : Draft}

theorem toList_prefix_of_toSql {sql : String} (h : (fixed word ++ rest).toSql d = .ok sql) :
    word.toList <+: sql.toList := by
  rw [toSql_behind (isSettled_fixed word), wording_fixed] at h
  cases hrest : rest.toSql d with
  | error e =>
      rw [hrest] at h
      cases h
  | ok text =>
      rw [hrest] at h
      cases h
      exact ⟨text.toList, String.toList_append.symm⟩

theorem toList_prefix_of_compile {q : Query} (h : (fixed word ++ rest).compile d = .ok q) :
    word.toList <+: q.sql.toList := by
  rw [compile_behind (isSettled_fixed word), wording_fixed] at h
  cases hrest : rest.compile d with
  | error e =>
      rw [hrest] at h
      cases h
  | ok q' =>
      rw [hrest] at h
      cases h
      exact ⟨q'.sql.toList, String.toList_append.symm⟩

end Draft

namespace SelectBuilder

/-- A text that begins with the words of a WITH clause, and not one that begins with a block. -/
theorem begins_of_keyword {text : List Char} (isRecursive : Bool)
    (h : (With.keyword isRecursive).toList <+: text) : "WITH ".toList <+: text := by
  have word : "WITH ".toList <+: (With.keyword isRecursive).toList := by
    cases isRecursive <;> decide
  exact word.trans h

theorem not_begins_of_select {text : List Char} (h : "SELECT".toList <+: text) :
    ¬"WITH ".toList <+: text := by
  intro other
  have both := List.prefix_of_prefix_length_le other h (by decide)
  exact absurd both (by decide)

variable (d : Dialect) {b : SelectBuilder} (single : b.isCompound = false)
  (faultless : b.fault? = none)
include single faultless

/-- Whoever reads the select sees whether it has a WITH clause. -/
theorem begins_iff {text : List Char}
    (reads : ∀ word rest, b.draft d = fixed word ++ rest → word.toList <+: text) :
    "WITH ".toList <+: text ↔ b.select.modifiers.with? ≠ none := by
  have own : b.withClause b.select.modifiers.with? = b := by
    obtain ⟨_ | _, fault?⟩ := b <;> rfl
  cases hw : b.select.modifiers.with? with
  | none =>
      obtain ⟨rest, hrest⟩ := exists_draft_withoutClause d single faultless
      rw [← hw, own] at hrest
      exact iff_of_false (not_begins_of_select (reads _ _ hrest)) (absurd rfl)
  | some w =>
      have hrest := draft_withClause d single faultless w
      rw [← hw, own] at hrest
      exact iff_of_true (begins_of_keyword w.isRecursive (reads _ _ hrest)) nofun

end SelectBuilder

namespace History

variable (h : History)

theorem faultless_of_single (single : h.isCompound = false) : h.builder.fault? = none := by
  rw [fault?_builder, misplaced_of_single single]
  rfl

/-- A call for common table expressions changes the WITH clause and nothing else. -/
theorem after_ctes (isRecursive : Bool) (ctes : List (Cte Node)) :
    ((ListClause.ctes isRecursive).step ctes).after h.builder =
      h.builder.withClause (With.ofCalls (h.withCalls ++ [(isRecursive, ctes)])) := by
  rw [With.ofCalls_concat, ← with?_builder]
  obtain ⟨⟨core, m⟩ | _, fault?⟩ := h.builder <;> rfl

theorem withClause_self : h.builder.withClause (With.ofCalls h.withCalls) = h.builder := by
  rw [← with?_builder]
  obtain ⟨⟨core, m⟩ | _, fault?⟩ := h.builder <;> rfl

/-- The lists of the calls have an item as soon as each of them has. -/
theorem ctes_ne_nil_iff (filled : ∀ call ∈ h.withCalls, call.2 ≠ []) :
    h.withCalls.flatMap (·.2) ≠ [] ↔ h.withCalls ≠ [] := by
  cases hcalls : h.withCalls with
  | nil => simp
  | cons call calls =>
      have first : call.2 ≠ [] := filled call (hcalls ▸ List.mem_cons_self)
      simp [first]

variable {h}

/-- An empty WITH clause stands before a select that had none. -/
theorem draft_of_emptyWith (single : h.isCompound = false) (unasked : h.withCalls = [])
    (d : Dialect) (isRecursive : Bool) :
    (((ListClause.ctes isRecursive).step []).after h.builder).draft d =
      fixed (With.keyword isRecursive) ++ fixed " " ++ h.builder.draft d := by
  have own := h.withClause_self
  rw [unasked] at own
  have written := SelectBuilder.draft_withClause d (h.isCompound_builder.trans single)
    (h.faultless_of_single single) ⟨isRecursive, []⟩
  rw [after_ctes, unasked]
  refine Eq.trans ?_ (written.trans ?_)
  · cases isRecursive <;> rfl
  · rw [show With.ofCalls [] = none from rfl] at own
    rw [own, append_assoc]
    rfl

/-- A WITH clause that there is already is kept, but it may become recursive. -/
theorem after_emptyWith (asked : h.withCalls ≠ []) {isRecursive : Bool}
    (same : isRecursive = true → h.withCalls.any (·.1) = true) :
    ((ListClause.ctes isRecursive).step []).after h.builder = h.builder := by
  have kept : With.ofCalls (h.withCalls ++ [(isRecursive, [])]) = With.ofCalls h.withCalls := by
    obtain ⟨call, calls, hcalls⟩ := List.exists_cons_of_ne_nil asked
    rw [hcalls] at same
    rw [With.ofCalls_concat, hcalls]
    cases isRecursive with
    | false => simp [With.ofCalls]
    | true =>
        have recursive := same rfl
        simp [With.ofCalls, List.any_cons] at recursive ⊢
        exact recursive
  rw [after_ctes, kept, withClause_self]

theorem draft_of_recursiveWith (single : h.isCompound = false) (asked : h.withCalls ≠ [])
    (plain : h.withCalls.any (·.1) = false) (d : Dialect) : ∃ rest,
      h.builder.draft d = fixed (With.keyword false) ++ rest ∧
        (((ListClause.ctes true).step []).after h.builder).draft d =
          fixed (With.keyword true) ++ rest := by
  have written := SelectBuilder.draft_withClause d (h.isCompound_builder.trans single)
    (h.faultless_of_single single)
  obtain ⟨call, calls, hcalls⟩ := List.exists_cons_of_ne_nil asked
  have own := h.withClause_self
  rw [hcalls] at own plain
  have before := written ⟨(call :: calls).any (·.1), (call :: calls).flatMap (·.2)⟩
  rw [show h.builder.withClause (some ⟨_, _⟩) = _ from own, plain] at before
  refine ⟨_, before, ?_⟩
  rw [after_ctes, With.ofCalls_concat, hcalls]
  have after := written ⟨true, (call :: calls).flatMap (·.2)⟩
  simp only [With.ofCalls, Option.getD_some, Bool.or_true, List.append_nil]
  exact after

/-- **Lists in turn.**  On every builder that is made by calls and is not compound, a clause that is
given as one list and then as another is the clause given as both lists, and a call without items
changes nothing, unless it asks for a WITH clause that there is not yet, or for recursion for the
first time.  Then the words of the clause are written although there is nothing in it, or the words
of a recursive one in place of the others.  A text begins with a WITH clause exactly if there was a
call that asks for one, so exactly if a common table expression was added as long as no such call
was without. -/
theorem lists_in_turn (h : History) (single : h.isCompound = false) :
    (∀ (c : ListClause) (xs ys : List c.Item),
      (c.step ys).after ((c.step xs).after h.builder) = (c.step (xs ++ ys)).after h.builder) ∧
    (∀ c : ListClause,
      (∀ r, c = .ctes r → h.withCalls ≠ [] ∧ (r = true → h.withCalls.any (·.1) = true)) →
        (c.step []).after h.builder = h.builder) ∧
    ∀ d,
      (h.withCalls = [] → ∀ r, (((ListClause.ctes r).step []).after h.builder).draft d =
        fixed (With.keyword r) ++ fixed " " ++ h.builder.draft d) ∧
      (h.withCalls ≠ [] → h.withCalls.any (·.1) = false → ∃ rest,
        h.builder.draft d = fixed (With.keyword false) ++ rest ∧
          (((ListClause.ctes true).step []).after h.builder).draft d =
            fixed (With.keyword true) ++ rest) ∧
      ∀ text, (h.builder.draft d).toSql d = .ok text ∨
          (∃ q, (h.builder.draft d).compile d = .ok q ∧ q.sql = text) →
        ("WITH ".toList <+: text.toList ↔ h.withCalls ≠ []) ∧
        ((∀ call ∈ h.withCalls, call.2 ≠ []) →
          ("WITH ".toList <+: text.toList ↔ h.withCalls.flatMap (·.2) ≠ [])) := by
  refine ⟨fun c => c.after_after h.builder, fun c asked => ?_, fun d => ⟨fun unasked r => ?_,
    fun asked plain => draft_of_recursiveWith single asked plain d, fun text read => ?_⟩⟩
  · by_cases hc : ∃ r, c = .ctes r
    · obtain ⟨r, rfl⟩ := hc
      obtain ⟨asked, same⟩ := asked r rfl
      exact after_emptyWith asked same
    · exact ListClause.after_nil h.builder (fun r hr => hc ⟨r, hr⟩)
        (h.isCompound_builder.trans single)
  · exact draft_of_emptyWith single unasked d r
  · have reads : ∀ word rest, h.builder.draft d = fixed word ++ rest →
        word.toList <+: text.toList := by
      intro word rest written
      rw [written] at read
      rcases read with inline | ⟨q, compiled, rfl⟩
      · exact toList_prefix_of_toSql inline
      · exact toList_prefix_of_compile compiled
    have begins : "WITH ".toList <+: text.toList ↔ h.withCalls ≠ [] := by
      rw [SelectBuilder.begins_iff d (h.isCompound_builder.trans single)
        (h.faultless_of_single single) reads, with?_builder]
      cases h.withCalls <;> simp [With.ofCalls]
    exact ⟨begins, fun filled => begins.trans (h.ctes_ne_nil_iff filled).symm⟩

/-- Calls with and without items on a select that has a common table expression. -/
theorem lists_in_turn_of_cte :
    let t : Node := .of (.table ⟨"t", none⟩)
    let x : Cte Node := ⟨"x", t, none⟩
    let h : History := .call (.call .new (.core (.fromRelation t))) (.whole (.addCtes false [x]))
    h.isCompound = false ∧ h.withCalls ≠ [] ∧ h.withCalls.any (·.1) = false ∧
      ((ListClause.ctes false).step []).after h.builder = h.builder ∧
      (ListClause.groups.step []).after h.builder = h.builder ∧
      (∃ rest, h.builder.draft .sqlite = fixed "WITH " ++ rest ∧
        (((ListClause.ctes true).step []).after h.builder).draft .sqlite =
          fixed "WITH RECURSIVE " ++ rest) ∧
      "WITH ".toList <+: "WITH \"x\" AS \"t\" SELECT * FROM \"t\"".toList := by
  intro t x h
  have asked : h.withCalls ≠ [] := List.cons_ne_nil _ _
  obtain ⟨-, empty, written⟩ := lists_in_turn h rfl
  obtain ⟨-, recursive, text⟩ := written .sqlite
  refine ⟨rfl, asked, rfl, empty (.ctes false) ?_, empty .groups nofun, recursive asked rfl, ?_⟩
  · rintro _ ⟨⟩
    exact ⟨asked, nofun⟩
  · exact (text _ (.inl (by decide +kernel))).1.mpr asked

/-- A call for common table expressions with an empty list puts the words before a select that has
none, on which no call asked for any. -/
theorem empty_with_written :
    let t : Node := .of (.table ⟨"t", none⟩)
    let h : History := .call .new (.core (.fromRelation t))
    let b := ((ListClause.ctes false).step []).after h.builder
    h.isCompound = false ∧ b.select.modifiers.with?.map (·.ctes.length) = some 0 ∧
      (h.builder.draft .generic).toSql .generic = .ok "SELECT * FROM \"t\"" ∧
      (b.draft .generic).toSql .generic = .ok "WITH  SELECT * FROM \"t\"" := by
  intro t h b
  refine ⟨rfl, rfl, ?_, ?_⟩
  · decide +kernel
  · decide +kernel

end History

end SqlTree
