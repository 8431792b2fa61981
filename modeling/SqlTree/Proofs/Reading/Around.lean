import SqlTree.Proofs.Reading.SameText

/-!
# SqlTree — Proofs — words around a draft

A draft that has no slots and comes to its end (`Draft.IsSettled`) reads the same whoever reads it:
it is its own text (`Draft.wording`).  What is read of a draft with such words before and behind it
is what is read of the draft alone, with the same text around, or the same error.

* `Draft.toSql_behind`, `Draft.toSql_before`: inline.
* `Draft.compile_behind`, `Draft.compile_before`: compiled; the placeholders keep their numbers.
-/

namespace SqlTree

namespace Draft

/-- Nothing in the draft waits for a value, and nothing stops it. -/
structure IsSettled (a : Draft) : Prop where
  whole : a.IsWhole
  slotless : Query.slots a.lexemes = []

/-- The text of the lexemes, with nothing in the slots. -/
def wording (d : Dialect) (a : Draft) : String := String.join (a.lexemes.map (Lexeme.text d))

/-! ### Settled drafts -/

section
variable {a b : Draft}

@[simp] theorem isSettled_nothing : nothing.IsSettled := ⟨rfl, rfl⟩

@[simp] theorem isSettled_fixed (text : String) : (fixed text).IsSettled := ⟨rfl, rfl⟩

@[simp] theorem isSettled_verbatim (text : String) : (verbatim text).IsSettled := ⟨rfl, rfl⟩

@[simp] theorem isSettled_ident (text : String) : (ident text).IsSettled := ⟨rfl, rfl⟩

theorem isSettled_opening : IsSettled ⟨[.opening], none⟩ := ⟨rfl, rfl⟩

theorem isSettled_closing : IsSettled ⟨[.closing], none⟩ := ⟨rfl, rfl⟩

theorem IsSettled.append (ha : a.IsSettled) (hb : b.IsSettled) : (a ++ b).IsSettled := by
  refine ⟨isWhole_append.mpr ⟨ha.whole, hb.whole⟩, ?_⟩
  rw [lexemes_append b ha.whole, Query.slots, List.filterMap_append]
  exact List.append_eq_nil_iff.mpr ⟨ha.slotless, hb.slotless⟩

theorem IsSettled.sepBy (between : String) {as : List Draft} (h : ∀ a ∈ as, a.IsSettled) :
    (sepBy between as).IsSettled := by
  induction as with
  | nil => exact isSettled_nothing
  | cons a as ih =>
      have first := h a List.mem_cons_self
      have rest := ih fun b hb => h b (List.mem_cons_of_mem a hb)
      cases as with
      | nil => exact first
      | cons b as => exact (first.append (isSettled_fixed between)).append rest

variable {d : Dialect}

@[simp] theorem wording_nothing : nothing.wording d = "" := rfl

@[simp] theorem wording_fixed (text : String) : (fixed text).wording d = text := by
  simp [wording, fixed, Lexeme.text]

@[simp] theorem wording_verbatim (text : String) : (verbatim text).wording d = text := by
  simp [wording, verbatim, Lexeme.text]

@[simp] theorem wording_ident (text : String) :
    (ident text).wording d = d.quoteIdentifier text := by
  simp [wording, ident, Lexeme.text]

theorem wording_append (ha : a.IsSettled) : (a ++ b).wording d = a.wording d ++ b.wording d := by
  rw [wording, lexemes_append b ha.whole, List.map_append, String.join_append]
  rfl

theorem wording_sepBy (between : String) {as : List Draft} (h : ∀ a ∈ as, a.IsSettled) :
    (sepBy between as).wording d = between.intercalate (as.map (wording d)) := by
  induction as with
  | nil => rfl
  | cons a as ih =>
      have first := h a List.mem_cons_self
      have rest := ih fun b hb => h b (List.mem_cons_of_mem a hb)
      cases as with
      | nil => exact String.intercalate_singleton.symm
      | cons b as =>
          rw [sepBy_cons_cons, wording_append (first.append (isSettled_fixed between)),
            wording_append first, wording_fixed, rest]
          exact String.intercalate_cons_cons.symm

end

/-! ### What is read -/

/-- Without slots, the texts of lexemes do not depend on the filling. -/
theorem texts_of_slotless {d : Dialect} {fill : Bind → Except Error String} {ls : List Lexeme}
    (h : Query.slots ls = []) : texts d fill ls = (ls.map (Lexeme.text d), none) := by
  induction ls with
  | nil => rfl
  | cons l ls ih =>
      cases l with
      | slot b => cases h
      | _ => simp only [texts, ih h, List.map_cons]

/-- Without slots, there is nothing to number. -/
theorem numbered_of_slotless {d : Dialect} {style : PlaceholderStyle} {ls : List Lexeme}
    (h : Query.slots ls = []) (index : Nat) (ms : List Lexeme) :
    Query.numbered d style index (ls ++ ms) =
      ls.map (Lexeme.text d) ++ Query.numbered d style index ms := by
  induction ls with
  | nil => rfl
  | cons l ls ih =>
      cases l with
      | slot b => cases h
      | _ => exact congrArg _ (ih h)

theorem numbered_append_of_slotless {d : Dialect} {style : PlaceholderStyle} {ls : List Lexeme}
    (h : Query.slots ls = []) (index : Nat) (ms : List Lexeme) :
    Query.numbered d style index (ms ++ ls) =
      Query.numbered d style index ms ++ ls.map (Lexeme.text d) := by
  induction ms generalizing index with
  | nil =>
      have texts : Query.numbered d style index (ls ++ []) = _ := numbered_of_slotless h index []
      rw [List.nil_append, ← List.append_nil ls, texts, List.append_nil]
      exact List.append_nil _
  | cons m ms ih =>
      cases m with
      | slot b => exact congrArg _ (ih (index + 1))
      | _ => exact congrArg _ (ih index)

section
variable {d : Dialect} {a : Draft} (ha : a.IsSettled) (b : Draft)
include ha

theorem readWith_of_isSettled (fill : Bind → Except Error String) :
    a.readWith d fill = (a.wording d, none) := by
  rw [readWith, texts_of_slotless ha.slotless, show a.fault? = none from ha.whole]
  rfl

theorem toSql_behind : (a ++ b).toSql d = (b.toSql d).map (a.wording d ++ ·) := by
  rw [toSql, readWith_append, readWith_of_isSettled ha, toSql]
  obtain ⟨sql, _ | e⟩ := b.readWith d (literal d) <;> rfl

theorem toSql_before : (b ++ a).toSql d = (b.toSql d).map (· ++ a.wording d) := by
  rw [toSql, readWith_append, readWith_of_isSettled ha, toSql]
  obtain ⟨sql, _ | e⟩ := b.readWith d (literal d) <;> rfl

theorem compile_behind : (a ++ b).compile d =
    (b.compile d).map fun q => { q with sql := a.wording d ++ q.sql } := by
  rw [compile, compile, fault?_append, show a.fault? = none from ha.whole, Option.none_or,
    lexemes_append b ha.whole]
  cases b.fault? with
  | some e => rfl
  | none =>
      have slots : Query.slots (a.lexemes ++ b.lexemes) = Query.slots b.lexemes := by
        rw [Query.slots, List.filterMap_append]
        exact congrArg (· ++ _) ha.slotless
      simp only [Query.ofLexemes, numbered_of_slotless ha.slotless, String.join_append, slots,
        wording, Except.map]

theorem compile_before : (b ++ a).compile d =
    (b.compile d).map fun q => { q with sql := q.sql ++ a.wording d } := by
  obtain ⟨ls, _ | e⟩ := b
  · have fault : (⟨ls, none⟩ ++ a : Draft).fault? = none :=
      (fault?_append _ a).trans ha.whole
    have lexemes : (⟨ls, none⟩ ++ a : Draft).lexemes = ls ++ a.lexemes := rfl
    have slots : Query.slots (ls ++ a.lexemes) = Query.slots ls := by
      rw [Query.slots, List.filterMap_append]
      exact (congrArg (_ ++ ·) ha.slotless).trans (List.append_nil _)
    rw [compile, fault, lexemes]
    simp only [compile, Query.ofLexemes, numbered_append_of_slotless ha.slotless,
      String.join_append, slots, wording, Except.map]
  · rfl

end

/-! ### Parentheses -/

variable {d : Dialect} (b : Draft)

theorem toSql_parens : b.parens.toSql d = (b.toSql d).map fun sql => "(" ++ sql ++ ")" := by
  rw [parens, toSql_before isSettled_closing, toSql_behind isSettled_opening]
  cases b.toSql d <;> rfl

theorem compile_parens : b.parens.compile d =
    (b.compile d).map fun q => { q with sql := "(" ++ q.sql ++ ")" } := by
  rw [parens, compile_before isSettled_closing, compile_behind isSettled_opening]
  cases b.compile d <;> rfl

end Draft

end SqlTree
