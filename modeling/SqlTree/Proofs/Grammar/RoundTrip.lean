import SqlTree.Proofs.Grammar.ReadBack
import SqlTree.Sql.Query

/-!
# SqlTree — Proofs — what is written is read back

An expression is written with as few parentheses as its operators need.  Read by the strengths of
these operators, the tokens are the expression again.  A reader has to know which words are names of
functions: an operator that is spelled like a function is written before parentheses as a call is.

* `Node.read_tokens`: the tokens of an expression are accepted by a reader who knows its functions
  from its operators, and what they are read as is what is left of the expression.
* `Node.not_read_tokens`: an operator and a function of one spelling have the same tokens.
-/

namespace SqlTree
open Draft

variable {isFunction : String → Bool}

namespace Node

/-- A list is no expression. -/
theorem Expression.ne_list {e : Node} (h : Expression e) (items : List Node) :
    e ≠ of (.list items) := by
  rintro rfl
  cases h

/-- Two expressions under AND. -/
theorem Expression.both {e e' : Node} (h : Expression e) (h' : Expression e') :
    Expression (of (.and [e, e'])) := by
  refine .and (by simp) ?_
  rintro x (_ | ⟨_, _ | ⟨_, ⟨⟩⟩⟩)
  · exact h
  · exact h'

/-- **Every expression is read back** by a reader who knows its functions from its operators. -/
theorem Expression.readBack {e : Node} (h : Expression e) (told : e.ToldApart isFunction) :
    e.ReadBack isFunction := by
  induction h with
  | column c => exact .column c
  | quoted v => exact .slot rfl rfl rfl
  | casted v c => exact .slot rfl rfl rfl
  | param b => exact .slot rfl rfl rfl
  | bool b => exact .bool b
  | @grouping e he ih =>
      exact .grouping (ih (told.of_mem_parts (List.mem_singleton_self e))) he.ne_list
  | @tuple items _ ih =>
      have list := told.of_mem_parts (List.mem_singleton_self (of (.list items)))
      exact .tuple fun e he => ih e he (list.of_mem_parts he)
  | @not e _ ih => exact .not (ih (told.of_mem_parts (List.mem_singleton_self e)))
  | @leading text e free _ ih =>
      exact .leading free (told.operator rfl) (ih (told.of_mem_parts (List.mem_singleton_self e)))
  | and nonempty _ ih => exact .and nonempty fun e he => ih e he (told.of_mem_parts he)
  | operator hop _ _ apart ihl ihr => exact .operator hop (ihl told.left) (ihr told.right) apart
  | between _ _ _ ih ihl ihh =>
      exact .between (ih told.left) (ihl (told.right.of_mem_parts List.mem_cons_self))
        (ihh (told.right.of_mem_parts (List.mem_cons_of_mem _ (List.mem_singleton_self _))))
  | isIn _ nonempty _ ih ihs =>
      exact .isIn (ih told.left) nonempty fun e he => ihs e he (told.right.of_mem_parts he)
  | isNotIn _ nonempty _ ih ihs =>
      exact .isNotIn (ih told.left) nonempty fun e he => ihs e he (told.right.of_mem_parts he)
  | matching escape? caseSensitive negated _ _ ihl ihr =>
      exact .matching escape? caseSensitive negated (ihl (told.of_mem_parts List.mem_cons_self))
        (ihr (told.of_mem_parts (List.mem_cons_of_mem _ (List.mem_singleton_self _))))
  | call distinct hkind free _ ih =>
      exact .call distinct hkind free (told.function rfl) fun e he => ih e he (told.of_mem_parts he)
  | @cast e _ free _ ih =>
      exact .cast free (ih (told.of_mem_parts (List.mem_singleton_self e)))
  | cases nonempty _ ih => exact .cases nonempty fun e he => ih e he (told.of_mem_parts he)

/-- **What is written is read back.**  In the generic dialect every expression can be written, and
reading its tokens by the strengths of the operators gives the expression, with its parentheses
erased, if the reader knows the functions of the expression and takes no operator before an operand
for one. -/
theorem read_tokens {e : Node} (h : Expression e) (told : e.ToldApart isFunction) :
    (e.draft .generic .statement).IsWhole ∧
      (Grammar.generic isFunction).read (Lexicon.generic.tokens
        (e.draft .generic .statement).lexemes) = some e.erased := by
  have statement : e.draft .generic .statement = e.draft .generic .item := by
    obtain ⟨form⟩ := e
    rw [draft_of, Form.draft_item, Form.draft_statement]
    cases form with
    | select s => cases h
    | _ => rfl
  rw [statement]
  have item := (h.readBack told).item
  exact ⟨item.whole, item.reads.read⟩

/-- A negated conjunction, whose first item begins with an operator before its operand and whose
second item is a disjunction with a call. -/
theorem read_tokens_of_not :
    let slot : Node := of (.quoted (.integer 7))
    let distance : Node := of (.unary (.leading "@") (of (.binary .subtraction slot slot)))
    let either : Node := of (.binary .or (of (.bool true)) (of (.call ⟨.named "f", [slot], false,
      none⟩)))
    let e : Node := of (.unary .not (of (.and [distance, either])))
    let isFunction (name : String) : Bool := name == "f"
    Expression e ∧ e.ToldApart isFunction ∧
      e.toSql .generic = .ok "NOT (@(7 - 7) AND (TRUE OR f(7)))" ∧
      (Grammar.generic isFunction).read (Lexicon.generic.tokens
        (e.draft .generic .statement).lexemes) =
      some (.not (.and
        [.leading "@" (.operator .subtraction (.atom (.slot ⟨none, some (.integer 7)⟩))
          (.atom (.slot ⟨none, some (.integer 7)⟩))),
        .operator .or (.atom (.bool true))
          (.call "f" false [.atom (.slot ⟨none, some (.integer 7)⟩)])])) := by
  intro slot distance either e isFunction
  have hslot : Expression slot := .quoted _
  have hdistance : Expression distance :=
    .leading ⟨by decide, by decide, by decide⟩ (.operator (.known (by decide)) hslot hslot nofun)
  have heither : Expression either := by
    refine .operator (.known (by decide)) (.bool true) (.call false nofun ?_ ?_) nofun
    · exact ⟨by decide, by decide, by decide⟩
    · rintro x (_ | ⟨_, ⟨⟩⟩)
      exact hslot
  have he : Expression e := .not (hdistance.both heither)
  have told : e.ToldApart isFunction := ⟨by decide, by decide⟩
  exact ⟨he, told, by decide +kernel, (read_tokens he told).2⟩

/-- An operator before a column in parentheses, and a call with the column: if both are spelled
alike, they have the same tokens, and no reader tells one from the other. -/
theorem not_read_tokens :
    let a : Node := of (.column ⟨⟨"t", none⟩, "a"⟩)
    let operator : Node := of (.unary (.leading "f") (of (.unary .grouping a)))
    let call : Node := of (.call ⟨.named "f", [a], false, none⟩)
    let both : Node := of (.and [operator, call])
    let tokens (e : Node) : List Token :=
      Lexicon.generic.tokens (e.draft .generic .statement).lexemes
    (Expression operator ∧ Expression call ∧ Expression both) ∧
      (∀ isFunction, (Grammar.generic isFunction).read (tokens both) ≠ some both.erased) ∧
      ¬∃ read : List Token → Option Tree, ∀ e, Expression e → read (tokens e) = some e.erased := by
  intro a operator call both tokens
  have free : IsFree "f" := ⟨by decide, by decide, by decide⟩
  have hoperator : Expression operator := .leading free (.grouping (.column _))
  have hcall : Expression call := by
    refine .call false nofun free ?_
    rintro x (_ | ⟨_, ⟨⟩⟩)
    exact .column _
  refine ⟨⟨hoperator, hcall, hoperator.both hcall⟩, fun isFunction same => ?_, ?_⟩
  · -- the reader takes both items for calls, or both for operators
    cases known : isFunction "f" with
    | true =>
        have told : (of (.and [call, call])).ToldApart isFunction := by
          refine ⟨?_, nofun⟩
          rintro name (_ | ⟨_, _ | ⟨_, ⟨⟩⟩⟩) <;> exact known
        have tokens_eq : tokens both = tokens (of (.and [call, call])) := by decide +kernel
        have calls : (Grammar.generic isFunction).read (tokens both) =
            some (of (.and [call, call])).erased :=
          tokens_eq ▸ ((hcall.both hcall).readBack told).item.reads.read
        cases Tree.and.inj (Option.some.inj (same.symm.trans calls))
    | false =>
        have told : (of (.and [operator, operator])).ToldApart isFunction := by
          refine ⟨nofun, ?_⟩
          rintro name (_ | ⟨_, _ | ⟨_, ⟨⟩⟩⟩) <;> exact known
        have tokens_eq : tokens both = tokens (of (.and [operator, operator])) := by
          decide +kernel
        have operators : (Grammar.generic isFunction).read (tokens both) =
            some (of (.and [operator, operator])).erased :=
          tokens_eq ▸ ((hoperator.both hoperator).readBack told).item.reads.read
        cases Tree.and.inj (Option.some.inj (same.symm.trans operators))
  · rintro ⟨read, reads⟩
    have tokens_eq : tokens operator = tokens call := by decide +kernel
    have first := reads operator hoperator
    rw [tokens_eq, reads call hcall] at first
    cases Option.some.inj first

end Node

end SqlTree
