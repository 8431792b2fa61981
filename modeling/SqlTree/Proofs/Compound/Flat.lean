import Mathlib.Data.List.Induction
import SqlTree.Proofs.Compound.Chain
import SqlTree.Proofs.Writing.Fault

/-!
# SqlTree — Proofs — set operations in SQLite

SQLite allows no parentheses around the operands of set operators and takes all four operators from
left to right, one as strong as the other.  So a text of blocks with words between them can stand
for one tree only (`Select.leftToRight`), and every other tree has to be refused.

* `Select.draft_sqlite`: a tree of set operations whose blocks can be written is refused exactly for
  an operand with clauses of its own, or a compound one on the right, among those that left operands
  lead to; otherwise it is written flat, and read from left to right, by the operators that the
  words stand for, the text is the tree.
-/

namespace SqlTree
open Draft

/-- Clauses that can be written around a body change nothing about why it is refused. -/
theorem Modifiers.fault?_around {d : Dialect} (m : Modifiers Node)
    (clauses : ∀ n ∈ m.before ++ m.after, n.Renders d) (body : Draft) :
    ((m.map (Node.part d)).around d body).fault? = body.fault? := by
  -- the clauses are whole around nothing, so each of them is
  have around : ((m.map (Node.part d)).around d nothing).IsWhole :=
    m.around_uniform congruence_isWhole d
      (fun n hn => (clauses n (List.mem_append_left _ hn)).alike.similar)
      (fun n hn => (clauses n (List.mem_append_right _ hn)).alike.similar)
      (fun _ _ => ⟨rfl, rfl⟩) (a := nothing) (b := nothing) rfl
  simp only [Modifiers.around, isWhole_append] at around
  obtain ⟨⟨⟨⟨ctes, -⟩, orders⟩, limit⟩, lock⟩ := around
  simp only [IsWhole] at ctes orders limit lock
  simp [Modifiers.around, ctes, orders, limit, lock]

namespace Select

section
variable {α : Type}

/-- The operands that left operands lead to, each with whether it is a left one. -/
def spine : Select α → List (Bool × Select α)
  | single _ _ => []
  | compound _ left right _ => (true, left) :: (false, right) :: left.spine

/-- A flat text cannot hold the operand: it has clauses of its own, or is compound on the right. -/
def IsUnfit (isLeft : Bool) (s : Select α) : Prop :=
  s.isModified = true ∨ isLeft = false ∧ s.core? = none

/-- One more block behind a tree, under the operator that the word before it stands for. -/
def follow (before : Select α) (link : String × Core α) : Option (Select α) :=
  (SetOperator.ofWord? link.1).map fun op => compound op before (single link.2 {}) {}

/-- The tree of blocks that are taken from left to right, with the words before all but the first;
no tree if some word stands for no operator. -/
def leftToRight (first : Core α) (links : List (String × Core α)) : Option (Select α) :=
  links.foldlM follow (single first {})

theorem leftToRight_concat (first : Core α) (links : List (String × Core α))
    (link : String × Core α) :
    leftToRight first (links ++ [link]) =
      (leftToRight first links).bind fun before => before.follow link := by
  simp only [leftToRight, List.foldlM_append, List.foldlM_cons, List.foldlM_nil,
    Option.bind_eq_bind, Option.pure_def, Option.bind_fun_some]

/-- The blocks of the tree are those of the text. -/
theorem cores_leftToRight {first : Core α} {links : List (String × Core α)} {s : Select α}
    (h : leftToRight first links = some s) : s.cores = first :: links.map Prod.snd := by
  induction links using List.reverseRecOn generalizing s with
  | nil =>
      obtain rfl : single first {} = s := Option.some.inj h
      rfl
  | append_singleton links link ih =>
      rw [leftToRight_concat] at h
      obtain ⟨before, read, hlast⟩ := Option.bind_eq_some_iff.mp h
      obtain ⟨op, -, rfl⟩ := Option.map_eq_some_iff.mp hlast
      rw [cores, ih read, List.map_append]
      rfl

theorem modifiers_of_isModified_eq_false {s : Select α} (bare : s.isModified = false) :
    s.modifiers = {} :=
  Modifiers.eq_empty_of_isEmpty (by simpa [isModified] using bare)

theorem isModified_of_fit {isLeft : Bool} {s : Select α} (h : ¬s.IsUnfit isLeft) :
    s.isModified = false :=
  Bool.eq_false_iff.mpr (not_or.mp h).1

theorem eq_single_of_fit {s : Select α} (h : ¬s.IsUnfit false) : ∃ core, s = single core {} := by
  have bare := modifiers_of_isModified_eq_false (isModified_of_fit h)
  cases s with
  | single core m =>
      obtain rfl : m = {} := bare
      exact ⟨core, rfl⟩
  | compound op left right m => exact absurd ⟨rfl, rfl⟩ (not_or.mp h).2

end

/-- Blocks with words between them, without parentheses. -/
def flatDraft (d : Dialect) (first : Core Node) (links : List (String × Core Node)) : Draft :=
  (first.map (Node.part d)).draft d ++
    inOrder (links.map fun (word, core) =>
      fixed (" " ++ word ++ " ") ++ (core.map (Node.part d)).draft d)

theorem flatDraft_concat (d : Dialect) (first : Core Node) (links : List (String × Core Node))
    (word : String) (core : Core Node) :
    flatDraft d first (links ++ [(word, core)]) =
      flatDraft d first links ++ fixed (" " ++ word ++ " ") ++
        (core.map (Node.part d)).draft d := by
  simp only [flatDraft, append_assoc]
  congr 1
  induction links with
  | nil => simp [inOrder]
  | cons link links ih =>
      rw [List.cons_append, List.map_cons, List.map_cons, inOrder_cons, inOrder_cons, ih]
      simp only [append_assoc]

/-! ### One operand -/

section
variable (op : SetOperator) (isLeft : Bool) {s : Select Node} (a : Draft)

theorem operandDraft_of_unfit (h : s.IsUnfit isLeft) : ∃ feature,
    operandDraft .sqlite op isLeft (s.map (Node.part .sqlite)) a =
      fail (.unsupported feature .sqlite) := by
  simp only [operandDraft, isModified_map, isNone_core?_map]
  split_ifs with modified nested
  · exact ⟨_, rfl⟩
  · exact ⟨_, rfl⟩
  · obtain h | ⟨rfl, h⟩ := h
    · exact absurd h modified
    · simp [h] at nested

theorem operandDraft_of_fit (h : ¬s.IsUnfit isLeft) :
    operandDraft .sqlite op isLeft (s.map (Node.part .sqlite)) a = a := by
  obtain ⟨bare, whole⟩ := not_or.mp h
  simp only [operandDraft, isModified_map, isNone_core?_map]
  rw [if_neg bare, if_neg]
  rintro nested
  simp only [Bool.and_eq_true, Option.isNone_iff_eq_none, Bool.not_eq_true'] at nested
  exact whole ⟨nested.2, nested.1⟩

end

/-! ### The spine -/

/-- A block that can be written by itself can be written in a set operation. -/
theorem isWhole_core {d : Dialect} {core : Core Node}
    (h : (Node.of (.select (.single core {}))).Renders d) :
    ((core.map (Node.part d)).draft d).IsWhole := by
  rwa [Node.Renders, Node.draft_select_statement, map, draft, Modifiers.around_empty] at h

/-- A select without clauses whose operands all fit is written flat, and the text is the tree. -/
theorem draft_of_fit {s : Select Node} (bare : s.isModified = false)
    (fit : ∀ operand ∈ s.spine, ¬operand.2.IsUnfit operand.1) :
    ∃ first links, (s.map (Node.part .sqlite)).draft .sqlite = flatDraft .sqlite first links ∧
      leftToRight first links = some s := by
  induction s with
  | single core m =>
      obtain rfl : m = {} := modifiers_of_isModified_eq_false bare
      exact ⟨core, [], (Modifiers.around_empty _ _).trans (append_nothing _).symm, rfl⟩
  | compound op left right m ihl _ =>
      obtain rfl : m = {} := modifiers_of_isModified_eq_false bare
      have left_fit : ¬left.IsUnfit true := fit (true, left) (by simp [spine])
      have right_fit : ¬right.IsUnfit false := fit (false, right) (by simp [spine])
      obtain ⟨core, rfl⟩ := eq_single_of_fit right_fit
      obtain ⟨first, links, hdraft, htree⟩ := ihl (isModified_of_fit left_fit)
        fun operand hoperand => fit operand (by simp [spine, hoperand])
      refine ⟨first, links ++ [(op.text, core)], ?_, ?_⟩
      · rw [map, draft, Modifiers.around_empty, operandDraft_of_fit op true _ left_fit, hdraft,
          operandDraft_of_fit op false _ right_fit, flatDraft_concat, map, draft,
          Modifiers.around_empty]
      · rw [leftToRight_concat, htree, Option.bind_some, follow, SetOperator.ofWord?_text]
        rfl

/-- A flat text can be written if its blocks can. -/
theorem isWhole_flatDraft {d : Dialect} {first : Core Node} {links : List (String × Core Node)}
    (cores : ∀ core ∈ first :: links.map Prod.snd,
      (Node.of (.select (.single core {}))).Renders d) :
    (flatDraft d first links).IsWhole := by
  induction links using List.reverseRecOn with
  | nil =>
      refine isWhole_append.mpr ⟨isWhole_core (cores first ?_), isWhole_nothing⟩
      exact List.mem_cons_self
  | append_singleton links link ih =>
      obtain ⟨word, core⟩ := link
      rw [List.map_append, ← List.cons_append] at cores
      rw [flatDraft_concat, isWhole_append, isWhole_append]
      refine ⟨⟨ih fun c hc => cores c ?_, isWhole_fixed _⟩, isWhole_core (cores core ?_)⟩
      · exact List.mem_append_left _ hc
      · exact List.mem_append_right _ (List.mem_singleton_self core)

/-- A select is refused for an operand that does not fit. -/
theorem fault_of_unfit {s : Select Node} (bare : s.isModified = false)
    (cores : ∀ core ∈ s.cores, (Node.of (.select (.single core {}))).Renders .sqlite)
    (unfit : ∃ operand ∈ s.spine, operand.2.IsUnfit operand.1) :
    ∃ feature, ((s.map (Node.part .sqlite)).draft .sqlite).fault? =
      some (.unsupported feature .sqlite) := by
  induction s with
  | single core m => simp [spine] at unfit
  | compound op left right m ihl _ =>
      obtain rfl : m = {} := modifiers_of_isModified_eq_false bare
      have left_cores : ∀ core ∈ left.cores,
          (Node.of (.select (.single core {}))).Renders .sqlite :=
        fun core hcore => cores core (List.mem_append_left _ hcore)
      rw [map, draft, Modifiers.around_empty]
      -- the left operand is written first, with all that it leads to
      by_cases left_unfit : left.IsUnfit true
      · obtain ⟨feature, refused⟩ := operandDraft_of_unfit op true
          ((left.map (Node.part .sqlite)).draft .sqlite) left_unfit
        exact ⟨feature, by rw [refused]; rfl⟩
      have left_bare := isModified_of_fit left_unfit
      rw [operandDraft_of_fit op true _ left_unfit]
      by_cases spine_unfit : ∃ operand ∈ left.spine, operand.2.IsUnfit operand.1
      · obtain ⟨feature, refused⟩ := ihl left_bare left_cores spine_unfit
        exact ⟨feature, by simp [refused]⟩
      -- then it is the right operand that does not fit
      · obtain ⟨first, links, hdraft, htree⟩ := draft_of_fit left_bare fun operand hoperand h =>
          spine_unfit ⟨operand, hoperand, h⟩
        have right_unfit : right.IsUnfit false := by
          obtain ⟨operand, hoperand, h⟩ := unfit
          obtain rfl | rfl | hoperand : operand = _ ∨ operand = _ ∨ operand ∈ _ := by
            simpa [spine] using hoperand
          · exact absurd h left_unfit
          · exact h
          · exact absurd ⟨operand, hoperand, h⟩ spine_unfit
        rw [cores_leftToRight htree] at left_cores
        have whole : (flatDraft .sqlite first links).fault? = none := isWhole_flatDraft left_cores
        obtain ⟨feature, refused⟩ := operandDraft_of_unfit op false
          ((right.map (Node.part .sqlite)).draft .sqlite) right_unfit
        exact ⟨feature, by simp [hdraft, whole, refused, fixed, fail]⟩

/-- **Set operations in SQLite.**  If its blocks can be written, a tree of set operations is refused
exactly for an operand that has clauses of its own, or is compound on the right, among those that
left operands lead to, and as unsupported.  Otherwise it is written as blocks with words between
them, which is the tree when the operators that the words stand for are taken from left to right.
Clauses of the whole are written around that, and if they can be written, then the whole is refused
just as it is without them. -/
theorem draft_sqlite (op : SetOperator) (left right : Select Node) (m : Modifiers Node)
    (cores : ∀ core ∈ left.cores ++ right.cores,
      (Node.of (.select (.single core {}))).Renders .sqlite) :
    let tree := compound op left right {}
    let written := (Node.of (.select tree)).draft .sqlite .statement
    let whole := (Node.of (.select (compound op left right m))).draft .sqlite .statement
    whole = (m.map (Node.part .sqlite)).around .sqlite written ∧
      ((∀ n ∈ m.before ++ m.after, n.Renders .sqlite) → whole.fault? = written.fault?) ∧
      ((∃ e, written.fault? = some e) ↔
        ∃ operand ∈ tree.spine,
          operand.2.isModified = true ∨ operand.1 = false ∧ operand.2.core? = none) ∧
      (∀ e, written.fault? = some e → ∃ feature, e = .unsupported feature .sqlite) ∧
      (written.fault? = none →
        ∃ first links, written = flatDraft .sqlite first links ∧
          leftToRight first links = some tree) := by
  intro tree written whole
  have equation : written = (tree.map (Node.part .sqlite)).draft .sqlite :=
    Node.draft_select_statement .sqlite tree
  have around : whole = (m.map (Node.part .sqlite)).around .sqlite written := by
    rw [equation, map, draft, Modifiers.around_empty]
    exact Node.draft_select_statement .sqlite _
  refine ⟨around, fun clauses => around ▸ m.fault?_around clauses written, ?_⟩
  by_cases unfit : ∃ operand ∈ tree.spine, operand.2.IsUnfit operand.1
  · obtain ⟨feature, hfault⟩ := fault_of_unfit (s := tree) rfl cores unfit
    rw [← equation] at hfault
    refine ⟨⟨fun _ => unfit, fun _ => ⟨_, hfault⟩⟩, fun e he => ⟨feature, ?_⟩, fun h => ?_⟩
    · exact (Option.some.inj (hfault.symm.trans he)).symm
    · rw [hfault] at h
      cases h
  · obtain ⟨first, links, hdraft, htree⟩ := draft_of_fit (s := tree) rfl fun operand hoperand h =>
      unfit ⟨operand, hoperand, h⟩
    rw [← equation] at hdraft
    have drawn : written.fault? = none := by
      rw [hdraft]
      exact isWhole_flatDraft (cores_leftToRight htree ▸ cores)
    refine ⟨⟨?_, fun h => absurd h unfit⟩, fun e he => ?_,
      fun _ => ⟨first, links, hdraft, htree⟩⟩
    · rintro ⟨e, he⟩
      rw [drawn] at he
      cases he
    · rw [drawn] at he
      cases he

/-- Three blocks, the last of them taken away from the union of the others, with a limit on the
whole. -/
theorem draft_sqlite_of_union_except :
    let core (n : Int64) : Core Node := { projections := [.of (.quoted (.integer n))] }
    let block (n : Int64) : Select Node := .single (core n) {}
    let union := compound .union (block 0) (block 1) {}
    let limit : Modifiers Node := { limit? := some (.of (.quoted (.integer 5))) }
    (∀ c ∈ union.cores ++ (block 2).cores, (Node.of (.select (.single c {}))).Renders .sqlite) ∧
      ((Node.of (.select (compound .except union (block 2) limit))).draft .sqlite
        .statement).fault? = none ∧
      (Node.of (.select (compound .except union (block 2) limit))).toSql .sqlite =
        .ok "SELECT 0 UNION SELECT 1 EXCEPT SELECT 2 LIMIT 5" ∧
      ∃ first links,
        (Node.of (.select (compound .except union (block 2) {}))).draft .sqlite .statement =
            flatDraft .sqlite first links ∧
          leftToRight first links = some (compound .except union (block 2) {}) := by
  intro core block union limit
  have cores : ∀ c ∈ union.cores ++ (block 2).cores,
      (Node.of (.select (.single c {}))).Renders .sqlite := by
    intro c hc
    obtain rfl | rfl | rfl : c = core 0 ∨ c = core 1 ∨ c = core 2 := by
      simpa [union, block, Select.cores] using hc
    · rfl
    · rfl
    · rfl
  obtain ⟨-, whole, -, -, flat⟩ := draft_sqlite .except union (block 2) limit cores
  have clauses : ∀ n ∈ limit.before ++ limit.after, n.Renders .sqlite := by
    intro n hn
    obtain rfl : n = .of (.quoted (.integer 5)) := by
      simpa [limit, Modifiers.before, Modifiers.after] using hn
    rfl
  have written : (Node.of (.select (compound .except union (block 2) limit))).toSql .sqlite =
      .ok "SELECT 0 UNION SELECT 1 EXCEPT SELECT 2 LIMIT 5" := by decide +kernel
  exact ⟨cores, (whole clauses).trans rfl, written, flat rfl⟩

end Select

end SqlTree
