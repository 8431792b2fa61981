import SqlTree.Proofs.Writing.Fault
import SqlTree.Sql.Query

/-!
# SqlTree — Proofs — the two ways to read a tree agree

Compiled or inline, a tree is the same text around its slots: what differs is what is put into them.
The text between slots is `fragments`, and `spliced` puts fillings into the gaps.

* `Node.compile_agrees_toSql`: a compiled query is its fragments with placeholders, and the inline
  statement is the same fragments with literals, or the error of the first slot without a value;
  what is refused when compiled is refused inline, for the same reason unless such a slot comes
  first.
-/

namespace SqlTree

/-! ### Text around slots -/

/-- The text before the first slot, and the texts after each slot. -/
def fragments (d : Dialect) : List Lexeme → String × List String
  | [] => ("", [])
  | .slot _ :: ls => ("", (fragments d ls).1 :: (fragments d ls).2)
  | l :: ls => (l.text d ++ (fragments d ls).1, (fragments d ls).2)

/-- Fragments with a filling in each gap. -/
def spliced (fragments : String × List String) (fillings : List String) : String :=
  fragments.1 ++ String.join (List.zipWith (· ++ ·) fillings fragments.2)

variable {d : Dialect}

@[simp] theorem spliced_cons (first : String) (rest : String × List String) (filling : String)
    (fillings : List String) :
    spliced (first, rest.1 :: rest.2) (filling :: fillings) =
      first ++ (filling ++ spliced rest fillings) := by
  simp [spliced, String.append_assoc]

theorem spliced_append (text : String) (rest : String × List String) (fillings : List String) :
    spliced (text ++ rest.1, rest.2) fillings = text ++ spliced rest fillings := by
  simp [spliced, String.append_assoc]

/-- There is a gap for every slot. -/
theorem length_fragments (d : Dialect) : ∀ ls : List Lexeme,
    (fragments d ls).2.length = (Query.slots ls).length
  | [] => rfl
  | .slot _ :: ls => congrArg (· + 1) (length_fragments d ls)
  | .fixed _ :: ls | .verbatim _ :: ls | .name _ :: ls | .string _ :: ls | .comment _ _ :: ls
  | .opening :: ls | .closing :: ls => length_fragments d ls

/-! ### Placeholders -/

/-- The placeholders of slots that are counted from `index` on. -/
def placeholders (style : PlaceholderStyle) (index : Nat) (bs : List Bind) : List String :=
  bs.mapIdx fun i b => style.placeholder (index + i) b.name?

theorem placeholders_cons (style : PlaceholderStyle) (index : Nat) (b : Bind) (bs : List Bind) :
    placeholders style index (b :: bs) =
      style.placeholder index b.name? :: placeholders style (index + 1) bs := by
  simp [placeholders, List.mapIdx_cons, Nat.add_assoc, Nat.add_comm 1]

/-- Compiled, the gaps hold the placeholders. -/
theorem join_numbered (style : PlaceholderStyle) (ls : List Lexeme) (index : Nat) :
    String.join (Query.numbered d style index ls) =
      spliced (fragments d ls) (placeholders style index (Query.slots ls)) := by
  induction ls generalizing index with
  | nil => rfl
  | cons l ls ih =>
      cases l with
      | slot b =>
          show String.join (_ :: _) = spliced (_, _ :: _) (placeholders _ _ (b :: Query.slots ls))
          rw [String.join_cons, ih, placeholders_cons, spliced_cons, String.empty_append]
      | _ =>
          exact (String.join_cons.trans (congrArg _ (ih index))).trans (spliced_append _ _ _).symm

/-! ### Slots with and without a value -/

/-- The first of the slots without a value. -/
def firstUnbound (bs : List Bind) : Option Bind := bs.find? (·.value?.isNone)

theorem firstUnbound_cons_of_value {b : Bind} {v : Value} (h : b.value? = some v)
    (bs : List Bind) : firstUnbound (b :: bs) = firstUnbound bs :=
  List.find?_cons_of_neg (by simp [h])

theorem firstUnbound_cons_of_none {b : Bind} (h : b.value? = none) (bs : List Bind) :
    firstUnbound (b :: bs) = some b :=
  List.find?_cons_of_pos (by simp [h])

theorem Bind.value_of_value {b : Bind} {v : Value} (h : b.value? = some v) : b.value = .ok v := by
  simp only [Bind.value, h]

theorem Bind.value_of_none {b : Bind} (h : b.value? = none) : b.value = .error b.unbound := by
  simp only [Bind.value, h]

/-! ### Literals -/

theorem literal_of_value {b : Bind} {v : Value} (h : b.value? = some v) :
    Draft.literal d b = .ok (d.quoteValue v) := by
  rw [Draft.literal, Bind.value_of_value h]
  rfl

theorem literal_of_none {b : Bind} (h : b.value? = none) :
    Draft.literal d b = .error b.unbound := by
  rw [Draft.literal, Bind.value_of_none h]
  rfl

/-- With a value for every slot, the gaps hold their literals. -/
theorem texts_of_values {ls : List Lexeme} {vs : List Value}
    (h : (Query.slots ls).map (·.value?) = vs.map some) :
    (Draft.texts d (Draft.literal d) ls).2 = none ∧
      String.join (Draft.texts d (Draft.literal d) ls).1 =
        spliced (fragments d ls) (vs.map d.quoteValue) := by
  induction ls generalizing vs with
  | nil => exact ⟨rfl, by rw [List.map_eq_nil_iff.mp h.symm]; rfl⟩
  | cons l ls ih =>
      cases l with
      | slot b =>
          obtain _ | ⟨v, vs⟩ := vs
          · cases h
          obtain ⟨hb, hbs⟩ := List.cons.inj h
          obtain ⟨hstop, htext⟩ := ih hbs
          simp only [Draft.texts, literal_of_value hb, String.join_cons, htext, hstop, fragments,
            List.map_cons, spliced_cons, String.empty_append, and_self]
      | _ =>
          obtain ⟨hstop, htext⟩ := ih h
          exact ⟨hstop,
            (String.join_cons.trans (congrArg _ htext)).trans (spliced_append _ _ _).symm⟩

/-- Reading stops at the first slot without a value. -/
theorem texts_of_firstUnbound {ls : List Lexeme} :
    (Draft.texts d (Draft.literal d) ls).2 = (firstUnbound (Query.slots ls)).map Bind.unbound := by
  induction ls with
  | nil => rfl
  | cons l ls ih =>
      cases l with
      | slot b =>
          show _ = Option.map _ (firstUnbound (b :: Query.slots ls))
          cases hb : b.value? with
          | none =>
              rw [Draft.texts, literal_of_none hb, firstUnbound_cons_of_none hb]
              rfl
          | some v =>
              rw [Draft.texts, literal_of_value hb, firstUnbound_cons_of_value hb]
              exact ih
      | _ => exact ih

/-! ### Values -/

/-- Asked for the values, the first slot without one is the error. -/
theorem values_of_firstUnbound {bs : List Bind} {b : Bind} (h : firstUnbound bs = some b) :
    bs.mapM Bind.value = .error b.unbound := by
  induction bs with
  | nil => cases h
  | cons b' bs ih =>
      rw [List.mapM_cons]
      cases hb : b'.value? with
      | none =>
          rw [firstUnbound_cons_of_none hb] at h
          obtain rfl : b' = b := Option.some.inj h
          rw [Bind.value_of_none hb]
          rfl
      | some v =>
          rw [firstUnbound_cons_of_value hb] at h
          rw [Bind.value_of_value hb, ih h]
          rfl

/-- Slots that all have values have no first one without. -/
theorem firstUnbound_of_values {bs : List Bind} {vs : List Value}
    (h : bs.map (·.value?) = vs.map some) : firstUnbound bs = none := by
  refine List.find?_eq_none.mpr fun b hb => ?_
  obtain ⟨v, _, hv⟩ := List.mem_map.mp (h ▸ List.mem_map_of_mem hb)
  simp [← hv]

/-! ### The two readings -/

namespace Draft

/-- An inline reading: its text if nothing stops it, and otherwise what stops it first. -/
theorem toSql_eq (a : Draft) :
    a.toSql d =
      match ((firstUnbound (Query.slots a.lexemes)).map Bind.unbound).or a.fault? with
      | none => .ok (String.join (texts d (literal d) a.lexemes).1)
      | some e => .error e := by
  rw [← texts_of_firstUnbound (d := d)]
  simp only [toSql, readWith]
  cases (texts d (literal d) a.lexemes).2.or a.fault? <;> rfl

theorem toSql_of_values {a : Draft} (whole : a.IsWhole) {vs : List Value}
    (h : (Query.slots a.lexemes).map (·.value?) = vs.map some) :
    a.toSql d = .ok (spliced (fragments d a.lexemes) (vs.map d.quoteValue)) := by
  rw [toSql_eq, firstUnbound_of_values h, show a.fault? = none from whole]
  exact congrArg _ (texts_of_values h).2

theorem toSql_of_firstUnbound {a : Draft} {b : Bind}
    (h : firstUnbound (Query.slots a.lexemes) = some b) : a.toSql d = .error b.unbound := by
  rw [toSql_eq, h]
  rfl

theorem toSql_of_fault {a : Draft} {e : Error} (stopped : a.fault? = some e)
    (h : firstUnbound (Query.slots a.lexemes) = none) : a.toSql d = .error e := by
  rw [toSql_eq, h, stopped]
  rfl

end Draft

variable (d)

/-- **The two readings of a tree agree.**  A compiled query is made of texts with placeholders
between them, and the inline statement is made of the same texts with the literals of the slots,
unless some slot has no value; then the first of these is the error, inline and when the values are
asked for.  A tree that is refused when compiled is refused inline for the same reason, or for the
first slot without a value among those that were written before. -/
theorem Node.compile_agrees_toSql (n : Node) :
    (∀ q, n.compile d = .ok q → ∃ texts : String × List String,
      texts.2.length = q.binds.length ∧
      q.sql = spliced texts (placeholders d.placeholderStyle 1 q.binds) ∧
      (∀ vs : List Value, q.binds.map (·.value?) = vs.map some →
        n.toSql d = .ok (spliced texts (vs.map d.quoteValue))) ∧
      ∀ b, q.binds.find? (·.value?.isNone) = some b →
        n.toSql d = .error (.unboundParameter (b.name?.getD "?")) ∧
        q.values = .error (.unboundParameter (b.name?.getD "?"))) ∧
    ∀ e, n.compile d = .error e →
      let written := Query.slots (n.draft d .statement).lexemes
      (∀ name, e ≠ .unboundParameter name) ∧
      ((written.find? (·.value?.isNone) = none ∧ n.toSql d = .error e) ∨
        ∃ b, written.find? (·.value?.isNone) = some b ∧
          n.toSql d = .error (.unboundParameter (b.name?.getD "?"))) := by
  refine ⟨fun q hq => ?_, fun e he => ?_⟩
  -- both readings are of one draft, which came to its end
  · have whole : (n.draft d .statement).IsWhole ∧
        q = .ofLexemes d d.placeholderStyle (n.draft d .statement).lexemes := by
      simp only [compile, Draft.compile] at hq
      split at hq
      · exact ⟨‹_›, (Except.ok.inj hq).symm⟩
      · cases hq
    obtain ⟨whole, rfl⟩ := whole
    refine ⟨fragments d _, length_fragments d _, join_numbered _ _ 1, fun vs hvs => ?_,
      fun b hb => ⟨?_, ?_⟩⟩
    · exact Draft.toSql_of_values whole hvs
    · exact Draft.toSql_of_firstUnbound hb
    · exact values_of_firstUnbound hb
  -- or it stopped, and what had been written before it is still read
  · have stopped : (n.draft d .statement).fault? = some e := by
      simp only [compile, Draft.compile] at he
      split at he
      · cases he
      · rw [← Except.error.inj he]
        assumption
    refine ⟨(isRefusal_of_fault stopped).ne_unboundParameter, ?_⟩
    cases hb : firstUnbound (Query.slots (n.draft d .statement).lexemes) with
    | none => exact .inl ⟨hb, Draft.toSql_of_fault stopped hb⟩
    | some b => exact .inr ⟨b, hb, Draft.toSql_of_firstUnbound hb⟩

/-- The readings of a value, of a parameter without a value, and of a match that the dialect cannot
spell with such a parameter inside it. -/
theorem Node.readings_of_leaves :
    let unset := of (.param ⟨some "name", none⟩)
    let refused := of (.list [unset, of (.regexp unset unset true false)])
    (∃ texts, spliced texts ["?"] = "?" ∧
      (of (.quoted (.bool true))).toSql .generic = .ok (spliced texts ["TRUE"])) ∧
    unset.toSql .generic = .error (.unboundParameter "name") ∧
    (refused.toSql .generic = .error (.unsupported .regexp .generic) ∨
      refused.toSql .generic = .error (.unboundParameter "name")) := by
  intro unset refused
  refine ⟨?_, ?_, ?_⟩
  · obtain ⟨texts, -, hsql, inline, -⟩ :=
      (compile_agrees_toSql .generic (of (.quoted (.bool true)))).1 _ rfl
    exact ⟨texts, hsql.symm, inline [.bool true] rfl⟩
  · obtain ⟨-, -, -, -, unbound⟩ := (compile_agrees_toSql .generic unset).1 _ rfl
    exact (unbound _ rfl).1
  · obtain ⟨-, h | ⟨b, hb, h⟩⟩ :=
      (compile_agrees_toSql .generic refused).2 (.unsupported .regexp .generic) rfl
    · exact .inl h.2
    · obtain rfl : ⟨some "name", none⟩ = b := Option.some.inj hb
      exact .inr h

end SqlTree
