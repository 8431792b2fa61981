import SqlTree.Sql.Node

/-!
# SqlTree — Proofs — drafts side by side

Drafts under `++` are a monoid whose neutral element is the empty draft.  The first fault of a
concatenation is its fault, and as long as there is none the lexemes stand one after the other.
-/

namespace SqlTree

namespace Draft

variable (a b c : Draft)

@[simp] theorem nothing_append : nothing ++ a = a := rfl

@[simp] theorem append_nothing : a ++ nothing = a := by
  obtain ⟨ls, _ | e⟩ := a
  · show Draft.mk (ls ++ []) none = _
    rw [List.append_nil]
  · rfl

theorem append_assoc : a ++ b ++ c = a ++ (b ++ c) := by
  obtain ⟨ls, _ | e⟩ := a
  · obtain ⟨ms, _ | e⟩ := b
    · show Draft.mk (ls ++ ms ++ c.lexemes) _ = Draft.mk (ls ++ (ms ++ c.lexemes)) _
      rw [List.append_assoc]
      rfl
    · rfl
  · rfl

@[simp] theorem fault?_append : (a ++ b).fault? = a.fault?.or b.fault? := by
  obtain ⟨ls, _ | e⟩ := a <;> rfl

variable {a}

theorem lexemes_append (h : a.fault? = none) : (a ++ b).lexemes = a.lexemes ++ b.lexemes := by
  obtain ⟨ls, fault?⟩ := a
  cases h
  rfl

/-! ### Drafts without a fault -/

/-- Writing came to the end. -/
def IsWhole (a : Draft) : Prop := a.fault? = none

instance : Decidable (IsWhole a) := inferInstanceAs (Decidable (a.fault? = none))

variable {b}

@[simp] theorem isWhole_append : (a ++ b).IsWhole ↔ a.IsWhole ∧ b.IsWhole := by
  simp [IsWhole]

@[simp] theorem isWhole_lexeme (l : Lexeme) : IsWhole ⟨[l], none⟩ := rfl

@[simp] theorem isWhole_nothing : nothing.IsWhole := rfl

@[simp] theorem isWhole_fixed (text : String) : (fixed text).IsWhole := rfl

@[simp] theorem isWhole_ident (text : String) : (ident text).IsWhole := rfl

@[simp] theorem isWhole_parens : a.parens.IsWhole ↔ a.IsWhole := by
  simp [parens]

theorem sepBy_cons_cons (between : String) (a b : Draft) (as : List Draft) :
    sepBy between (a :: b :: as) = a ++ fixed between ++ sepBy between (b :: as) := rfl

theorem sepBy_append (between : String) {as bs : List Draft} (has : as ≠ []) (hbs : bs ≠ []) :
    sepBy between (as ++ bs) = sepBy between as ++ fixed between ++ sepBy between bs := by
  induction as with
  | nil => exact absurd rfl has
  | cons a as ih =>
      obtain _ | ⟨a', as⟩ := as
      · obtain ⟨b, bs, rfl⟩ := List.exists_cons_of_ne_nil hbs
        rfl
      · rw [List.cons_append, List.cons_append, sepBy_cons_cons, sepBy_cons_cons,
          ← List.cons_append, ih (List.cons_ne_nil _ _)]
        simp only [append_assoc]

theorem inOrder_cons (a : Draft) (as : List Draft) : inOrder (a :: as) = a ++ inOrder as := rfl

/-- A list item by item: what stands between goes before each item but the first. -/
theorem sepBy_cons (between : String) (a : Draft) (as : List Draft) :
    sepBy between (a :: as) = a ++ inOrder (as.map (fixed between ++ ·)) := by
  induction as generalizing a with
  | nil => exact (append_nothing a).symm
  | cons b bs ih =>
      rw [sepBy_cons_cons, ih, List.map_cons, inOrder_cons]
      simp only [append_assoc]

end Draft

namespace Part

@[simp] theorem isWhole_operand {p : Part} {least : Nat} :
    (p.operand least).IsWhole ↔ p.item.IsWhole := by
  unfold operand
  split
  · exact Draft.isWhole_parens
  · rfl

@[simp] theorem isWhole_enclosed {p : Part} : p.enclosed.IsWhole ↔ p.item.IsWhole := by
  unfold enclosed
  split
  · rfl
  · exact Draft.isWhole_parens

end Part

/-! ### The places of a construct -/

namespace Form

variable (d : Dialect) (form : Form Part)

theorem draft_item : form.draft d .item = form.item d := by
  cases form with
  | unary op _ => cases op <;> rfl
  | and items => rcases items with _ | ⟨_, _ | ⟨_, _ | _⟩⟩ <;> rfl
  | _ => rfl

/-- Only a select is written otherwise as a statement: without its parentheses. -/
theorem draft_statement : form.draft d .statement = match form with
    | .select s => s.draft d
    | form => form.item d := by
  cases form with
  | unary op _ => cases op <;> rfl
  | and items => rcases items with _ | ⟨_, _ | ⟨_, _ | _⟩⟩ <;> rfl
  | _ => rfl

theorem draft_element : form.draft d .element = match form with
    | .unary .grouping inner => inner.item
    | form => form.item d := by
  cases form with
  | unary op _ => cases op <;> rfl
  | and items => rcases items with _ | ⟨_, _ | ⟨_, _ | _⟩⟩ <;> rfl
  | _ => rfl

theorem draft_bounds : form.draft d .bounds = match form with
    | .and [low, high] => boundsDraft low high
    | form => form.item d := by
  cases form with
  | unary op _ => cases op <;> rfl
  | and items => rcases items with _ | ⟨_, _ | ⟨_, _ | _⟩⟩ <;> rfl
  | _ => rfl

end Form

namespace Node

variable (d : Dialect) (s : Select Node)

theorem draft_item (form : Form Node) :
    (of form).draft d .item = (form.map (part d)).item d := by
  rw [draft_of, Form.draft_item]

theorem draft_select_item :
    (of (.select s)).draft d .item = ((s.map (part d)).draft d).parens := by
  rw [draft_of]
  rfl

theorem draft_select_statement :
    (of (.select s)).draft d .statement = (s.map (part d)).draft d := by
  rw [draft_of]
  rfl

/-- Anything but a select is written as a statement as it is written anywhere. -/
theorem draft_statement_eq_item {e : Node} (h : e.isSelect = false) :
    e.draft d .statement = e.draft d .item := by
  obtain ⟨form⟩ := e
  rw [draft_of, Form.draft_item, Form.draft_statement]
  cases form with
  | select s => cases h
  | _ => rfl

end Node

end SqlTree
