import SqlTree.Proofs.Mutation.Restriction
import SqlTree.Proofs.Reading.Around

/-!
# SqlTree — Proofs — the body of a common table expression

A body is written as an operand that nothing may be looser than.  A select has parentheses there of
its own, and so has whatever is grouped, once for all groupings around it.  A list of rows and a
statement that changes rows bind as tightly as an atom, so that no operand place puts parentheses
around them: as bodies they stand bare.

* `Node.isClosed_draft`: in whatever is written for a tree, every parenthesis is closed.
* `Cte.draft_body`: what is written for a body of each kind, in how many pairs of parentheses.
-/

namespace SqlTree
open Draft

/-! ### Pairs of parentheses -/

/-- How many more parentheses are opened than closed. -/
def depth : List Lexeme → Int
  | [] => 0
  | .opening :: ls => depth ls + 1
  | .closing :: ls => depth ls - 1
  | _ :: ls => depth ls

/-- Every parenthesis is closed, and none is closed that was not opened before. -/
structure IsClosed (ls : List Lexeme) : Prop where
  depth_eq : depth ls = 0
  depth_take (n : Nat) : 0 ≤ depth (ls.take n)

theorem depth_append (ls ms : List Lexeme) : depth (ls ++ ms) = depth ls + depth ms := by
  induction ls with
  | nil => simp [depth]
  | cons l ls ih => cases l <;> simp only [List.cons_append, depth, ih] <;> omega

namespace IsClosed

variable {ls ms : List Lexeme}

theorem nil : IsClosed [] := ⟨rfl, fun n => by simp [depth]⟩

theorem append (h : IsClosed ls) (h' : IsClosed ms) : IsClosed (ls ++ ms) := by
  refine ⟨by rw [depth_append, h.depth_eq, h'.depth_eq]; rfl, fun n => ?_⟩
  rw [List.take_append, depth_append]
  exact Int.add_nonneg (h.depth_take n) (h'.depth_take _)

theorem parens (h : IsClosed ls) : IsClosed (.opening :: ls ++ [.closing]) := by
  have closed : depth (ls ++ [.closing]) = -1 := by rw [depth_append, h.depth_eq]; rfl
  refine ⟨by rw [List.cons_append, depth, closed]; rfl, fun n => ?_⟩
  cases n with
  | zero => exact Int.le_refl 0
  | succ n =>
      have inside := h.depth_take n
      -- at most one parenthesis is closed behind what is inside
      have last : -1 ≤ depth (List.take (n - ls.length) [.closing]) := by
        cases n - ls.length <;> simp [depth]
      rw [List.cons_append, List.take_succ_cons, depth, List.take_append, depth_append]
      omega

theorem of_ne {l : Lexeme} (opening : l ≠ .opening) (closing : l ≠ .closing) : IsClosed [l] := by
  have flat : ∀ ls, depth (l :: ls) = depth ls := fun ls => by cases l <;> simp_all [depth]
  refine ⟨flat [], fun n => ?_⟩
  cases n with
  | zero => exact Int.le_refl 0
  | succ n => rw [List.take_succ_cons, flat, List.take_nil]; exact Int.le_refl 0

end IsClosed

/-- The lexemes are all in one pair of parentheses. -/
def IsEnclosed (ls : List Lexeme) : Prop :=
  ∃ inner, IsClosed inner ∧ ls = .opening :: inner ++ [.closing]

section
variable {ls ms ns : List Lexeme} {l : Lexeme}

theorem not_isEnclosed_of_head (h : ls.head? ≠ some .opening) : ¬IsEnclosed ls := by
  rintro ⟨inner, -, rfl⟩
  exact h rfl

/-- Where everything is closed before the end, no pair of parentheses is around it all. -/
theorem not_isEnclosed_append (hms : ms ≠ []) (closed : depth ms = 0) :
    ¬IsEnclosed (ms ++ l :: ns) := by
  rintro ⟨inner, hinner, h⟩
  obtain ⟨m, ms, rfl⟩ := List.exists_cons_of_ne_nil hms
  rw [List.cons_append, List.cons_append] at h
  obtain ⟨rfl, rest⟩ := List.cons.inj h
  have short : ms.length ≤ inner.length := by
    have lengths := congrArg List.length rest
    simp only [List.length_append, List.length_cons, List.length_nil] at lengths
    omega
  have begins : ms = inner.take ms.length := by
    have inside : (inner ++ [Lexeme.closing]).take ms.length = inner.take ms.length :=
      List.take_append_of_le_length short
    rw [← inside, ← rest, List.take_left]
  have inside := hinner.depth_take ms.length
  rw [← begins] at inside
  rw [depth] at closed
  omega

end

theorem Draft.lexemes_parens {a : Draft} (whole : a.IsWhole) :
    a.parens.lexemes = .opening :: a.lexemes ++ [.closing] := by
  obtain ⟨ls, _⟩ := a
  cases whole
  rfl

/-- All parentheses of a whole draft are closed. -/
theorem congruence_isClosed :
    Congruence fun a _ => a.IsWhole → IsClosed a.lexemes where
  nothing _ := .nil
  append := by
    intro a _ b _ ha hb whole
    obtain ⟨whole_a, whole_b⟩ := isWhole_append.mp whole
    rw [lexemes_append b whole_a]
    exact (ha whole_a).append (hb whole_b)
  parens := by
    intro a _ ha whole
    have whole_a := isWhole_parens.mp whole
    rw [lexemes_parens whole_a]
    exact (ha whole_a).parens
  lexeme l plain _ := .of_ne (by rintro rfl; cases plain) (by rintro rfl; cases plain)

/-- **Every parenthesis of a draft is closed.** -/
theorem Node.isClosed_draft (d : Dialect) (n : Node) (place : Place)
    (whole : (n.draft d place).IsWhole) : IsClosed (n.draft d place).lexemes :=
  n.draft_kept congruence_isClosed d
    (fun _ _ _ => .of_ne (by simp) (by simp))
    (fun _ _ => ⟨fun _ => .of_ne (by simp) (by simp), fun _ => .of_ne (by simp) (by simp)⟩)
    (fun _ _ => nofun) place whole

/-! ### Statements begin with a word -/

namespace Draft

/-- Something is written, and it does not begin with a parenthesis. -/
def StartsBare (a : Draft) : Prop := ∃ l ls, a.lexemes = l :: ls ∧ l ≠ .opening

variable {a : Draft}

theorem startsBare_fixed (text : String) : (fixed text).StartsBare := ⟨_, _, rfl, by simp⟩

theorem StartsBare.append (h : a.StartsBare) (b : Draft) : (a ++ b).StartsBare := by
  obtain ⟨l, ls, begins, bare⟩ := h
  obtain ⟨_, _ | e⟩ := a
  · cases begins
    exact ⟨l, ls ++ b.lexemes, rfl, bare⟩
  · exact ⟨l, ls, begins, bare⟩

theorem StartsBare.not_isEnclosed (h : a.StartsBare) : ¬IsEnclosed a.lexemes := by
  obtain ⟨l, ls, begins, bare⟩ := h
  refine not_isEnclosed_of_head ?_
  rw [begins]
  exact fun same => bare (Option.some.inj same)

theorem not_isEnclosed_fail (e : Error) : ¬IsEnclosed (fail e).lexemes :=
  not_isEnclosed_of_head nofun

end Draft

section
variable (d : Dialect)

theorem valuesDraft_startsBare (rows : List (List Part)) : (valuesDraft rows).StartsBare :=
  (startsBare_fixed "VALUES ").append _

theorem Insert.not_isEnclosed (s : Insert Part) : ¬IsEnclosed (s.draft d).lexemes := by
  obtain ⟨_ | t, columns, source?⟩ := s
  · exact not_isEnclosed_fail _
  · exact ((((startsBare_fixed "INSERT INTO ").append _).append _).append _).not_isEnclosed

namespace Mutation

variable (target : Node) (m : Mutation)

theorem opening_startsBare : (m.opening d target).StartsBare := by
  cases m with
  | update s => exact ((startsBare_fixed "UPDATE ").append _).append _
  | delete s => exact (startsBare_fixed "DELETE FROM ").append _

theorem openingInPlace_startsBare : (m.openingInPlace d target).StartsBare := by
  cases m with
  | update s => exact ((startsBare_fixed "UPDATE ").append _).append _
  | delete s => exact (((startsBare_fixed "DELETE ").append _).append _).append _

theorem not_isEnclosed : ¬IsEnclosed ((Node.of m.form).draft d .statement).lexemes := by
  rw [written_eq]
  cases m.rows.source.relation? with
  | none => exact not_isEnclosed_fail _
  | some target =>
      dsimp only
      by_cases assigns : m.assignsNothing = true
      · rw [if_pos assigns]
        exact not_isEnclosed_fail _
      rw [if_neg assigns]
      by_cases spelled : m.rows.isSpelled d = true
      · rw [if_pos spelled]
        exact (((m.openingInPlace_startsBare d target).append _).append _).not_isEnclosed
      rw [if_neg spelled]
      by_cases plain : m.rows.isPlain = true
      · rw [if_pos plain]
        exact ((m.opening_startsBare d target).append _).not_isEnclosed
      rw [if_neg plain]
      cases m.rows.key? with
      | none => exact not_isEnclosed_fail _
      | some key => exact ((m.opening_startsBare d target).append _).not_isEnclosed

end Mutation

end

/-! ### Selects -/

section
variable (d : Dialect)

/-- Clauses before the body begin with a word, and without them the body comes first. -/
theorem Modifiers.around_eq (m : Modifiers Part) (body : Draft) :
    (∀ w ∈ m.with?, (m.around d body).StartsBare) ∧
      (m.with? = none → ∃ rest, m.around d body = body ++ rest) := by
  obtain ⟨_ | w, orders, limit?, offset?, lock?⟩ := m
  · refine ⟨nofun, fun _ => ?_⟩
    rw [around, Option.map_none, Option.getD_none, nothing_append, append_assoc, append_assoc]
    exact ⟨_, rfl⟩
  · have begins : w.draft.StartsBare := ((startsBare_fixed _).append _).append _
    refine ⟨fun _ _ => ?_, nofun⟩
    exact (((begins.append _).append _).append _).append _

theorem Core.draft_startsBare (c : Core Part) : (c.draft d).StartsBare := by
  simp only [draft, append_assoc]
  exact (startsBare_fixed "SELECT").append _

/-- A select begins with a word, or it is compound and begins with its left operand. -/
theorem Select.draft_cases (s : Select Part) :
    (s.draft d).StartsBare ∨
      ∃ op left right m rest, s = .compound op left right m ∧
        s.draft d = operandDraft d op true left (left.draft d) ++
          (fixed (" " ++ op.text ++ " ") ++ rest) := by
  cases s with
  | single core m =>
      obtain ⟨before, bare⟩ := m.around_eq d (core.draft d)
      refine .inl ?_
      cases hw : m.with? with
      | some w => exact before w hw
      | none =>
          obtain ⟨rest, around⟩ := bare hw
          rw [draft, around]
          exact (core.draft_startsBare d).append rest
  | compound op left right m =>
      obtain ⟨before, bare⟩ := m.around_eq d <|
        operandDraft d op true left (left.draft d) ++ fixed (" " ++ op.text ++ " ") ++
          operandDraft d op false right (right.draft d)
      cases hw : m.with? with
      | some w => exact .inl (before w hw)
      | none =>
          obtain ⟨rest, around⟩ := bare hw
          refine .inr ⟨op, left, right, m, operandDraft d op false right (right.draft d) ++ rest,
            rfl, ?_⟩
          rw [draft, around, append_assoc, append_assoc]

variable {d}

theorem Select.lexemes_ne_nil {s : Select Part} (whole : (s.draft d).IsWhole) :
    (s.draft d).lexemes ≠ [] := by
  rcases s.draft_cases d with ⟨l, ls, begins, -⟩ | ⟨op, left, right, m, rest, -, written⟩
  · rw [begins]
    exact List.cons_ne_nil l ls
  · rw [written] at whole ⊢
    rw [lexemes_append _ (isWhole_append.mp whole).1]
    exact List.append_ne_nil_of_right_ne_nil _ (List.cons_ne_nil _ _)

/-- An operand is refused, or written as it is or in parentheses. -/
theorem operandDraft_cases (op : SetOperator) (isLeft : Bool) (s : Select Part) (a : Draft) :
    (∃ e, operandDraft d op isLeft s a = fail e) ∨ operandDraft d op isLeft s a = a ∨
      operandDraft d op isLeft s a = a.parens := by
  cases d with
  | sqlite =>
      rw [operandDraft]
      by_cases modified : s.isModified = true
      · exact .inl ⟨_, if_pos modified⟩
      rw [if_neg modified]
      by_cases nested : (s.core?.isNone && !isLeft) = true
      · exact .inl ⟨_, if_pos nested⟩
      · exact .inr (.inl (if_neg nested))
  | generic | postgresql | mysql =>
      rw [operandDraft]
      by_cases chains : s.chains op isLeft = true
      · exact .inr (.inl (if_pos chains))
      · exact .inr (.inr (if_neg chains))

/-- An operand is something, with all its parentheses closed. -/
theorem isClosed_operandDraft {op : SetOperator} {isLeft : Bool} {s : Select Node}
    (whole : (operandDraft d op isLeft (s.map (Node.part d))
      ((s.map (Node.part d)).draft d)).IsWhole) :
    IsClosed (operandDraft d op isLeft (s.map (Node.part d))
        ((s.map (Node.part d)).draft d)).lexemes ∧
      (operandDraft d op isLeft (s.map (Node.part d))
        ((s.map (Node.part d)).draft d)).lexemes ≠ [] := by
  generalize hp : s.map (Node.part d) = p at whole ⊢
  have statement : (p.draft d).IsWhole → IsClosed (p.draft d).lexemes := by
    rw [← hp, ← Node.draft_select_statement]
    exact Node.isClosed_draft d _ .statement
  rcases operandDraft_cases op isLeft p (p.draft d) with ⟨e, refused⟩ | bare | parens
  · rw [refused] at whole
    cases whole
  · rw [bare] at whole ⊢
    exact ⟨statement whole, Select.lexemes_ne_nil whole⟩
  · rw [parens] at whole ⊢
    rw [lexemes_parens (isWhole_parens.mp whole)]
    exact ⟨(statement (isWhole_parens.mp whole)).parens, List.cons_ne_nil _ _⟩

/-- **A select is in no parentheses** as a statement: it begins with a word, or with an operand of a
set operator, behind which the operator follows. -/
theorem Select.not_isEnclosed (s : Select Node)
    (whole : ((Node.of (.select s)).draft d .statement).IsWhole) :
    ¬IsEnclosed ((Node.of (.select s)).draft d .statement).lexemes := by
  rw [Node.draft_select_statement] at whole ⊢
  rcases (s.map (Node.part d)).draft_cases d with bare | ⟨op, l, r, m, rest, compound, written⟩
  · exact bare.not_isEnclosed
  cases s with
  | single core m' => cases compound
  | compound op' left right m' =>
      cases compound
      rw [written] at whole ⊢
      have operand := (isWhole_append.mp whole).1
      obtain ⟨closed, something⟩ := isClosed_operandDraft operand
      rw [lexemes_append _ operand]
      exact not_isEnclosed_append something closed.depth_eq

end

/-! ### Bodies -/

namespace Node

/-- The tree without the groupings around it. -/
def inside : Node → Node
  | of (.unary .grouping e) => e.inside
  | n => n

/-- A grouping, or a select. -/
def isParenthesized (n : Node) : Bool := n.isGrouping || n.isSelect

/-- A select, a list of rows, or a statement that changes rows. -/
def isBody : Node → Bool
  | of (.select _) | of (.values _) | of (.insert _) | of (.update _) | of (.delete _) => true
  | of _ => false

theorem inside_grouping (e : Node) : (of (.unary .grouping e)).inside = e.inside := by
  rw [inside]

theorem inside_of_isGrouping_eq_false {n : Node} (h : n.isGrouping = false) : n.inside = n := by
  obtain ⟨form⟩ := n
  cases form with
  | unary op e =>
      cases op with
      | grouping => cases h
      | _ => simp [inside]
  | _ => simp [inside]

/-- However often it is grouped, what is grouped stands in one pair of parentheses, and so does a
select that is not. -/
theorem draft_item_of_isParenthesized (d : Dialect) {n : Node} (h : n.isParenthesized = true) :
    n.draft d .item = (n.inside.draft d .statement).parens := by
  induction n using Node.induction with
  | step form ih =>
      cases form with
      | select s =>
          rw [draft_select_item, inside_of_isGrouping_eq_false rfl, draft_select_statement]
      | unary op e =>
          cases op with
          | grouping =>
              have written : (of (.unary .grouping e)).draft d .item =
                  if e.isParenthesized then e.draft d .item else (e.draft d .item).parens := rfl
              rw [inside_grouping, written]
              by_cases inner : e.isParenthesized = true
              · rw [if_pos inner]
                exact ih e (List.mem_singleton_self e) inner
              · rw [if_neg inner]
                obtain ⟨grouping, select⟩ :=
                  Bool.or_eq_false_iff.mp (Bool.eq_false_iff.mpr inner)
                rw [inside_of_isGrouping_eq_false grouping, draft_statement_eq_item d select]
          | _ => cases h
      | _ => cases h

/-- The statements that a body may be are in no parentheses by themselves. -/
theorem not_isEnclosed_of_isBody {d : Dialect} {n : Node} (h : n.isBody = true)
    (whole : (n.draft d .statement).IsWhole) : ¬IsEnclosed (n.draft d .statement).lexemes := by
  obtain ⟨form⟩ := n
  cases form with
  | select s => exact s.not_isEnclosed whole
  | values rows =>
      rw [draft_of]
      exact (valuesDraft_startsBare _).not_isEnclosed
  | insert s =>
      rw [draft_of]
      exact Insert.not_isEnclosed d _
  | update s => exact Mutation.not_isEnclosed d (.update s)
  | delete s => exact Mutation.not_isEnclosed d (.delete s)
  | _ => cases h

theorem strength_of_isBody_inside {n : Node} (h : n.inside.isBody = true) :
    n.strength = Strength.atom := by
  obtain ⟨form⟩ := n
  cases form with
  | unary op e => cases op <;> first | rfl | cases h
  | select _ | values _ | insert _ | update _ | delete _ => rfl
  | _ => cases h

end Node

namespace Cte

variable {α : Type} (c : Cte α)

/-- The words that say whether the rows are stored. -/
def storage : String :=
  match c.materialized? with
  | some true => "MATERIALIZED "
  | some false => "NOT MATERIALIZED "
  | none => ""

/-- What is written before the body. -/
def heading : Draft :=
  ident c.name ++ fixed " AS " ++
    match c.materialized? with
    | some true => fixed "MATERIALIZED "
    | some false => fixed "NOT MATERIALIZED "
    | none => nothing

theorem heading_isSettled : c.heading.IsSettled := by
  refine ((isSettled_ident c.name).append (isSettled_fixed " AS ")).append ?_
  rcases c.materialized? with _ | _ | _
  · exact isSettled_nothing
  · exact isSettled_fixed _
  · exact isSettled_fixed _

theorem wording_heading (d : Dialect) :
    c.heading.wording d = d.quoteIdentifier c.name ++ " AS " ++ c.storage := by
  have name := (isSettled_ident c.name).append (isSettled_fixed " AS ")
  rw [heading, wording_append name, wording_append (isSettled_ident c.name), wording_ident,
    wording_fixed, storage]
  rcases c.materialized? with _ | _ | _
  · rw [wording_nothing]
  · rw [wording_fixed]
  · rw [wording_fixed]

end Cte

/-- What is written for a common table expression: a pair of parentheses around the statement of a
body that is a select or a grouping, and none around any other. -/
theorem Cte.draft_of_isBody (d : Dialect) (c : Cte Node) (h : c.relation.inside.isBody = true) :
    (c.map (Node.part d)).draft = c.heading ++
      if c.relation.isParenthesized then (c.relation.inside.draft d .statement).parens
      else c.relation.inside.draft d .statement := by
  have operand : (c.relation.part d).operand Strength.atom = c.relation.draft d .item :=
    if_neg (Nat.not_lt.mpr (Node.strength_of_isBody_inside h).ge)
  have begins : (c.map (Node.part d)).draft = c.heading ++ c.relation.draft d .item :=
    congrArg (c.heading ++ ·) operand
  rw [begins]
  by_cases enclosed : c.relation.isParenthesized = true
  · rw [if_pos enclosed, Node.draft_item_of_isParenthesized d enclosed]
  · rw [if_neg enclosed]
    obtain ⟨grouping, select⟩ := Bool.or_eq_false_iff.mp (Bool.eq_false_iff.mpr enclosed)
    rw [Node.inside_of_isGrouping_eq_false grouping, Node.draft_statement_eq_item d select]

/-- **The body of a common table expression.**  A body that is a select or a grouping stands in one
pair of parentheses behind the name: what is in them is the statement, which is not in parentheses
itself.  A list of rows or a statement that changes rows stands there as it is, without any.  So it
is in a WITH clause, and by itself inline and compiled. -/
theorem Cte.draft_body (d : Dialect) (c : Cte Node) (h : c.relation.inside.isBody = true) :
    let body := c.relation.inside
    let text (sql : String) : String :=
      d.quoteIdentifier c.name ++ " AS " ++ c.storage ++
        if c.relation.isParenthesized then "(" ++ sql ++ ")" else sql
    (c.map (Node.part d)).draft = c.heading ++
        (if c.relation.isParenthesized then (body.draft d .statement).parens
          else body.draft d .statement) ∧
      ((body.draft d .statement).IsWhole →
        IsClosed (body.draft d .statement).lexemes ∧
          ¬IsEnclosed (body.draft d .statement).lexemes) ∧
      (Node.of (.cte c)).toSql d = (body.toSql d).map text ∧
      (Node.of (.cte c)).compile d =
        (body.compile d).map fun q => { q with sql := text q.sql } := by
  intro body text
  have statement : (Node.of (.cte c)).draft d .statement = c.heading ++
      if c.relation.isParenthesized then (body.draft d .statement).parens
      else body.draft d .statement := by
    rw [Node.draft_of]
    exact c.draft_of_isBody d h
  refine ⟨c.draft_of_isBody d h, ?_, ?_, ?_⟩
  · intro whole
    exact ⟨Node.isClosed_draft d body .statement whole, Node.not_isEnclosed_of_isBody h whole⟩
  · rw [Node.toSql, statement, toSql_behind c.heading_isSettled, wording_heading, Node.toSql]
    by_cases enclosed : c.relation.isParenthesized = true
    · rw [if_pos enclosed, toSql_parens]
      simp only [text, if_pos enclosed]
      cases (body.draft d .statement).toSql d <;> rfl
    · rw [if_neg enclosed]
      simp only [text, if_neg enclosed]
  · rw [Node.compile, statement, compile_behind c.heading_isSettled, wording_heading, Node.compile]
    by_cases enclosed : c.relation.isParenthesized = true
    · rw [if_pos enclosed, compile_parens]
      simp only [text, if_pos enclosed]
      cases (body.draft d .statement).compile d <;> rfl
    · rw [if_neg enclosed]
      simp only [text, if_neg enclosed]

/-- A select that is grouped twice is in one pair of parentheses. -/
theorem Cte.draft_body_of_grouped_select :
    let select := Node.of (.select (.single { projections := [.of (.sql "1")] } {}))
    let grouped := Node.of (.unary .grouping (.of (.unary .grouping select)))
    let c : Cte Node := { name := "x", relation := grouped, materialized? := some true }
    c.relation.inside.isBody = true ∧
      (Node.of (.cte c)).toSql .postgresql = .ok "\"x\" AS MATERIALIZED (SELECT 1)" ∧
      IsClosed (c.relation.inside.draft .postgresql .statement).lexemes ∧
      ¬IsEnclosed (c.relation.inside.draft .postgresql .statement).lexemes := by
  intro select grouped c
  obtain ⟨-, statement, inline, -⟩ := draft_body .postgresql c rfl
  obtain ⟨closed, bare⟩ := statement rfl
  have inside : c.relation.inside.toSql .postgresql = .ok "SELECT 1" := rfl
  refine ⟨rfl, ?_, closed, bare⟩
  rw [inline, inside]
  exact congrArg Except.ok (by decide)

/-- A list of rows is in no parentheses, so that nothing in parentheses follows the name. -/
theorem Cte.bare_values :
    let c : Cte Node := { name := "x", relation := .of (.values [[.of (.quoted (.integer 1))]]) }
    (Node.of (.cte c)).toSql .generic = .ok "\"x\" AS VALUES (1)" ∧
      ¬∃ body, (Node.of (.cte c)).toSql .generic = .ok ("\"x\" AS " ++ "(" ++ body ++ ")") := by
  intro c
  have written : (Node.of (.cte c)).toSql .generic = .ok "\"x\" AS VALUES (1)" := rfl
  refine ⟨written, ?_⟩
  rintro ⟨body, enclosed⟩
  have chars := congrArg String.toList (Except.ok.inj (written.symm.trans enclosed))
  simp at chars

end SqlTree
