import SqlTree.Proofs.Writing.Uniform.Node
import SqlTree.Sql.Query

/-!
# SqlTree — Proofs — the text of a query does not depend on its values

Two trees may be the same but for their values (`Node.SameButValues`).  Writing them side by side,
the two drafts stay the same but for what their slots hold, and the slots come from corresponding
leaves (`Draft.Matching`).

* `Node.compile_of_sameButValues`: compiled, both are refused with one error, or both give one text
  with one list of names, and each value goes to the place of its leaf.
-/

namespace SqlTree

/-! ### Trees that are values -/

/-- The value that the tree is, whether or not it belongs to a column. -/
def Node.value? : Node → Option Value
  | of (.quoted v) | of (.casted v _) => some v
  | of _ => none

namespace Node

/-- A value is quoted, or it is known to belong to a column. -/
theorem eq_of_value? {n : Node} {v : Value} (h : n.value? = some v) :
    n = of (.quoted v) ∨ ∃ c, n = of (.casted v c) := by
  obtain ⟨form⟩ := n
  cases form with
  | quoted w =>
      obtain rfl : w = v := Option.some.inj h
      exact .inl rfl
  | casted w c =>
      obtain rfl : w = v := Option.some.inj h
      exact .inr ⟨c, rfl⟩
  | _ => cases h

section
variable {n : Node} {v : Value} (h : n.value? = some v)
include h

theorem outline_of_value? : n.outline = .value v.isNull := by
  obtain rfl | ⟨c, rfl⟩ := eq_of_value? h <;> rfl

theorem strength_of_value? : n.strength = Strength.atom := by
  obtain rfl | ⟨c, rfl⟩ := eq_of_value? h <;> rfl

theorem leaves_of_value? : n.leaves = [⟨none, some v⟩] := by
  obtain rfl | ⟨c, rfl⟩ := eq_of_value? h <;> exact leaves_of _

theorem draft_of_value? (d : Dialect) (place : Place) :
    n.draft d place = Draft.slot ⟨none, some v⟩ := by
  obtain rfl | ⟨c, rfl⟩ := eq_of_value? h <;> rfl

end

end Node

/-! ### Trees that are the same but for values -/

/-- The trees differ in their values only: not in which of them are NULL, and not in the names of
parameters. -/
inductive Node.SameButValues : Node → Node → Prop
  | value {m n : Node} {v w : Value} (hm : m.value? = some v) (hn : n.value? = some w)
      (null : v.isNull = w.isNull) : SameButValues m n
  | param (name? : Option String) (v? w? : Option Value) :
      SameButValues (of (.param ⟨name?, v?⟩)) (of (.param ⟨name?, w?⟩))
  /-- One construct, filled with subtrees in two ways. -/
  | construct (g : Form (Node × Node)) (parts : ∀ p ∈ g.parts, SameButValues p.1 p.2) :
      SameButValues (of (g.map Prod.fst)) (of (g.map Prod.snd))

namespace Node.SameButValues

variable {m n : Node}

theorem outline (h : SameButValues m n) : m.outline = n.outline := by
  cases h with
  | value hm hn null => rw [outline_of_value? hm, outline_of_value? hn, null]
  | param name? v? w? => rfl
  | construct g _ =>
      cases g with
      | unary op _ => cases op <;> rfl
      | list items => cases items <;> rfl
      | and items => rcases items with _ | ⟨_, _ | ⟨_, _ | _⟩⟩ <;> rfl
      | call c => rcases c with ⟨_, _, _, _ | ⟨_, _ | _⟩⟩ <;> rfl
      | _ => rfl

theorem strength (h : SameButValues m n) : m.strength = n.strength := by
  induction h with
  | value hm hn null => rw [strength_of_value? hm, strength_of_value? hn]
  | param name? v? w? => rfl
  | construct g _ ih =>
      cases g with
      -- a conjunction of one item binds as that item
      | and items =>
          rcases items with _ | ⟨only, _ | _⟩
          · rfl
          · exact ih only (List.mem_singleton_self only)
          · rfl
      | _ => rfl

end Node.SameButValues

/-! ### Corresponding leaves -/

theorem zip_flatMap {α β γ : Type} {f : α → List β} {g : α → List γ} : ∀ {xs : List α},
    (∀ x ∈ xs, (f x).length = (g x).length) →
      (xs.flatMap f).zip (xs.flatMap g) = xs.flatMap fun x => (f x).zip (g x)
  | [], _ => rfl
  | x :: xs, h => by
      rw [List.flatMap_cons, List.flatMap_cons, List.flatMap_cons,
        List.zip_append (h x List.mem_cons_self),
        zip_flatMap fun y hy => h y (List.mem_cons_of_mem x hy)]

namespace Node.SameButValues

variable {m n : Node}

theorem length_leaves (h : SameButValues m n) : m.leaves.length = n.leaves.length := by
  induction h with
  | value hm hn null => rw [leaves_of_value? hm, leaves_of_value? hn]; rfl
  | param name? v? w? => rw [leaves_of, leaves_of]; rfl
  | construct g _ ih =>
      rw [leaves_of, leaves_of, Form.own_map, Form.own_map, Form.parts_map, Form.parts_map,
        List.length_append, List.length_append, List.flatMap_map, List.flatMap_map,
        List.length_flatMap, List.length_flatMap, List.map_congr_left ih]

theorem zip_leaves {g : Form (Node × Node)} (parts : ∀ p ∈ g.parts, SameButValues p.1 p.2) :
    (of (g.map Prod.fst)).leaves.zip (of (g.map Prod.snd)).leaves =
      g.own.map (fun b => (b, b)) ++ g.parts.flatMap fun p => p.1.leaves.zip p.2.leaves := by
  rw [leaves_of, leaves_of, Form.own_map, Form.own_map, Form.parts_map, Form.parts_map,
    List.zip_append rfl, List.flatMap_map, List.flatMap_map,
    zip_flatMap fun p hp => (parts p hp).length_leaves]
  congr 1
  -- the construct's own leaves are the same on both sides
  induction g.own with
  | nil => rfl
  | cons b bs ih => rw [List.zip_cons_cons, ih, List.map_cons]

/-- Corresponding leaves have the same name. -/
theorem name?_eq (h : SameButValues m n) : ∀ b ∈ m.leaves.zip n.leaves, b.1.name? = b.2.name? := by
  induction h with
  | value hm hn null =>
      rw [leaves_of_value? hm, leaves_of_value? hn]
      simp
  | param name? v? w? =>
      rw [leaves_of, leaves_of]
      simp [Form.own, Form.parts, Form.children]
  | construct g parts ih =>
      rw [zip_leaves parts]
      intro b hb
      obtain hb | hb := List.mem_append.mp hb
      · obtain ⟨b, _, rfl⟩ := List.mem_map.mp hb
        rfl
      · obtain ⟨p, hp, hb⟩ := List.mem_flatMap.mp hb
        exact ih p hp b hb

end Node.SameButValues

/-! ### Drafts that are the same but for their slots -/

/-- The same lexeme, or two slots that belong together. -/
inductive Lexeme.Matching (R : Bind → Bind → Prop) : Lexeme → Lexeme → Prop
  | same {l : Lexeme} (h : ∀ b, l ≠ .slot b) : Matching R l l
  | slot {b b' : Bind} (h : R b b') : Matching R (.slot b) (.slot b')

structure Draft.Matching (R : Bind → Bind → Prop) (a b : Draft) : Prop where
  lexemes : List.Forall₂ (Lexeme.Matching R) a.lexemes b.lexemes
  fault? : a.fault? = b.fault?

namespace Draft.Matching

variable {R : Bind → Bind → Prop}

theorem fail (e : Error) : Matching R (Draft.fail e) (Draft.fail e) := ⟨.nil, rfl⟩

theorem slot {b b' : Bind} (h : R b b') : Matching R (Draft.slot b) (Draft.slot b') :=
  ⟨.cons (.slot h) .nil, rfl⟩

theorem same {l : Lexeme} (h : ∀ b, l ≠ .slot b) : Matching R ⟨[l], none⟩ ⟨[l], none⟩ :=
  ⟨.cons (.same h) .nil, rfl⟩

/-- Both stop at the same point. -/
theorem congruence : Congruence (Matching R) := by
  refine .of_lexemes ⟨.nil, rfl⟩ ?_ fun _ => same
  rintro ⟨ls, stop?⟩ ⟨ls', _⟩ ⟨ms, stop'?⟩ ⟨ms', _⟩ ⟨hl, rfl⟩ ⟨hm, rfl⟩
  -- after a fault neither side is written on
  cases stop? with
  | none => exact ⟨List.rel_append hl hm, rfl⟩
  | some e => exact ⟨hl, rfl⟩

theorem verbatim (text : String) : Matching R (Draft.verbatim text) (Draft.verbatim text) :=
  same (by simp)

end Draft.Matching

/-- **Trees that are the same but for values are written alike**: their slots hold corresponding
leaves, and nothing else differs. -/
theorem Node.SameButValues.draft_matching {R : Bind → Bind → Prop} (d : Dialect) {m n : Node}
    (h : SameButValues m n) (leaves : ∀ b ∈ m.leaves.zip n.leaves, R b.1 b.2) (place : Place) :
    Draft.Matching R (m.draft d place) (n.draft d place) := by
  induction h generalizing place with
  | value hm hn null =>
      rw [draft_of_value? hm, draft_of_value? hn]
      refine .slot (leaves (_, _) ?_)
      rw [leaves_of_value? hm, leaves_of_value? hn]
      exact List.mem_singleton_self _
  | param name? v? w? =>
      rw [leaves_of, leaves_of] at leaves
      exact .slot (leaves _ (List.mem_singleton_self _))
  | construct g parts ih =>
      rw [zip_leaves parts] at leaves
      rw [draft_of, draft_of, Form.map_map, Form.map_map]
      refine g.draft_uniform Draft.Matching.congruence d
        (fun p hp => ⟨?_, ?_, fun place => ?_, fun name _ => .verbatim name⟩)
        (fun e _ => .fail e) (fun text _ => ⟨.verbatim _, .verbatim _⟩) (fun b hb => .slot ?_) place
      · exact (parts p hp).outline
      · exact (parts p hp).strength
      · exact ih p hp (fun b hb => leaves b
          (List.mem_append_right _ (List.mem_flatMap.mpr ⟨p, hp, hb⟩))) place
      · exact leaves (b, b) (List.mem_append_left _ (List.mem_map_of_mem hb))

/-! ### Queries -/

section
variable {R : Bind → Bind → Prop} {ls ms : List Lexeme}
  (h : List.Forall₂ (Lexeme.Matching R) ls ms)
include h

/-- The slots belong together one by one. -/
theorem slots_matching : List.Forall₂ R (Query.slots ls) (Query.slots ms) := by
  induction h with
  | nil => exact .nil
  | @cons l _ _ _ hl _ ih =>
      cases hl with
      | same hl =>
          cases l with
          | slot b => exact absurd rfl (hl b)
          | _ => exact ih
      | slot hb => exact .cons hb ih

/-- Where matching slots have the same name, the numbered texts are the same. -/
theorem numbered_matching (d : Dialect) (style : PlaceholderStyle)
    (named : ∀ b b', R b b' → b.name? = b'.name?) (index : Nat) :
    Query.numbered d style index ls = Query.numbered d style index ms := by
  induction h generalizing index with
  | nil => rfl
  | @cons l _ _ _ hl _ ih =>
      cases hl with
      | same hl =>
          cases l with
          | slot b => exact absurd rfl (hl b)
          | _ => exact congrArg (_ :: ·) (ih index)
      | slot hb => rw [Query.numbered, Query.numbered, named _ _ hb, ih (index + 1)]

end

/-- Slots that come from corresponding leaves come from the same places among the leaves. -/
theorem exists_places {xs ys bs cs : List Bind}
    (h : List.Forall₂ (fun b c => (b, c) ∈ xs.zip ys) bs cs) :
    ∃ places : List Nat,
      bs.map some = places.map (xs[·]?) ∧ cs.map some = places.map (ys[·]?) := by
  induction h with
  | nil => exact ⟨[], rfl, rfl⟩
  | cons hbc _ ih =>
      obtain ⟨places, hbs, hcs⟩ := ih
      obtain ⟨i, hi⟩ := List.mem_iff_getElem?.mp hbc
      obtain ⟨hb, hc⟩ := List.getElem?_zip_eq_some.mp hi
      refine ⟨i :: places, ?_, ?_⟩
      · rw [List.map_cons, List.map_cons, hbs, hb]
      · rw [List.map_cons, List.map_cons, hcs, hc]

/-- **The text of a query does not depend on values.**  Trees that are the same but for their values
are both refused with the same error, or both give the same text with the same names of slots; and
the slots of both hold what is found at the same leaves, in the same order. -/
theorem Node.compile_of_sameButValues (d : Dialect) {m n : Node} (h : SameButValues m n) :
    match m.compile d, n.compile d with
    | .ok q, .ok r =>
        q.sql = r.sql ∧ q.style = r.style ∧ q.binds.length = r.binds.length ∧
          q.binds.map (·.name?) = r.binds.map (·.name?) ∧
          ∃ places : List Nat, q.binds.map some = places.map (m.leaves[·]?) ∧
            r.binds.map some = places.map (n.leaves[·]?)
    | .error e, .error e' => e = e'
    | _, _ => False := by
  have written := h.draft_matching (R := fun b c => (b, c) ∈ m.leaves.zip n.leaves) d
    (fun _ => id) .statement
  have named : ∀ b c, (b, c) ∈ m.leaves.zip n.leaves → b.name? = c.name? :=
    fun b c => h.name?_eq (b, c)
  simp only [compile, Draft.compile, ← written.fault?]
  cases hf : (m.draft d .statement).fault? with
  | some e => rfl
  | none =>
      have slots := slots_matching written.lexemes
      refine ⟨?_, rfl, slots.length_eq, ?_, exists_places slots⟩
      · simp only [Query.ofLexemes, numbered_matching written.lexemes d _ named]
      · exact List.forall₂_eq_eq_eq ▸ List.forall₂_map_left_iff.mpr
          (List.forall₂_map_right_iff.mpr (slots.imp named))

/-- A column compared with a value, and with another value that is known to belong to the column. -/
theorem Node.compile_of_quoted_and_casted :
    let id : Column := ⟨⟨"users", none⟩, "id"⟩
    let compared (n : Node) : Node := of (.binary .equality (of (.column id)) n)
    let m := compared (of (.quoted (.bool true)))
    let n := compared (of (.casted (.text "") id))
    SameButValues m n ∧
      ∃ q r, m.compile .postgresql = .ok q ∧ n.compile .postgresql = .ok r ∧ q.sql = r.sql := by
  intro id compared m n
  have column : SameButValues (of (.column id)) (of (.column id)) := .construct (.column id) nofun
  have values : SameButValues (of (.quoted (.bool true))) (of (.casted (.text "") id)) :=
    .value rfl rfl rfl
  have same : SameButValues m n := by
    refine .construct (.binary .equality (of (.column id), of (.column id))
      (of (.quoted (.bool true)), of (.casted (.text "") id))) ?_
    rintro p (_ | ⟨_, _ | ⟨_, ⟨⟩⟩⟩)
    · exact column
    · exact values
  exact ⟨same, _, _, rfl, rfl, (compile_of_sameButValues .postgresql same).1⟩

end SqlTree
