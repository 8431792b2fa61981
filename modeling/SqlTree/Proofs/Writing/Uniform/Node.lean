import SqlTree.Proofs.Tree.Leaves
import SqlTree.Proofs.Writing.Draft
import SqlTree.Proofs.Writing.Uniform.Select

/-!
# SqlTree — Proofs — writing is uniform

One form may be filled with parts in two ways.  If the parts are alike, place by place, then the
two drafts are related: a construct treats its parts as they come, and cannot tell related drafts
apart.

* `Form.draft_split`: the statement for every construct, which asks of the items of SELECT lists
  that they are related as they are written there, and of all other parts that they are similar.
* `Form.draft_uniform`: the statement for parts that are alike wherever they are written.
* `Node.draft_kept`: a property of drafts that is kept by `++` and by parentheses holds of what is
  written for a tree.
-/

namespace SqlTree
open Draft

variable {S : Draft → Draft → Prop} {γ : Type} {u v : γ → Part}

/-! ### Rows -/

section
variable {α : Type}

/-- The select of the keys has all the parts of the rows. -/
theorem Rows.parts_keys (r : Rows α) (key : α) :
    (r.keys key).parts = key :: (r.source.parts ++ r.after) := by
  simp [Rows.keys, Rows.after, Select.parts, Modifiers.before, Modifiers.after, Core.parts,
    Core.children]

/-- Only the key is in its SELECT list. -/
theorem Rows.elsewhere_keys (r : Rows α) (key : α) :
    (r.keys key).elsewhere = r.source.parts ++ r.after := by
  simp [Rows.keys, Rows.after, Select.elsewhere, Modifiers.before, Modifiers.after, Core.elsewhere]

/-- A key is lacking where one is needed, there is none, and the rows cannot do without. -/
theorem Rows.lacksKey_eq_true {d : Dialect} {r : Rows α} (needed : r.needsKey = true)
    (foreign : r.isNative d = false) (none : r.key? = none) : r.lacksKey d = true := by
  simp [Rows.lacksKey, needed, foreign, none]

end

/-- All parts of the rows are similar, and the key is also related as the item of a SELECT list.
What their joins are refused for is related to itself. -/
structure Rows.Similar (S : Draft → Draft → Prop) (d : Dialect) (u v : γ → Part) (r : Rows γ) :
    Prop where
  source : ∀ x ∈ r.source.parts, Part.Similar S (u x) (v x)
  after : ∀ x ∈ r.after, Part.Similar S (u x) (v x)
  key : ∀ x ∈ r.key?, Part.Similar S (u x) (v x)
  keyShown : ∀ x ∈ r.key?, S (u x).projection (v x).projection
  refused : ∀ e ∈ r.source.refusals d, S (fail e) (fail e)

section
variable (hS : Congruence S)
include hS

theorem valuesDraft_uniform {rows : List (List γ)}
    (h : ∀ x ∈ rows.flatten, Part.Similar S (u x) (v x)) :
    S (valuesDraft (rows.map (·.map u))) (valuesDraft (rows.map (·.map v))) := by
  simp only [valuesDraft, List.map_map]
  exact hS.append (hS.word rfl) (hS.sepBy rfl (forall₂_map fun row hrow => hS.parens
    (Part.list_uniform hS fun x hx => h x (List.mem_flatten.mpr ⟨row, hrow, hx⟩))))

theorem defaultsDraft_uniform (d : Dialect) : S (defaultsDraft d) (defaultsDraft d) := by
  cases d with
  | mysql =>
      exact hS.append (hS.append (hS.append (hS.word rfl) (hS.parens hS.nothing)) (hS.word rfl))
        (hS.parens hS.nothing)
  | _ => exact hS.word rfl

theorem Insert.draft_uniform (d : Dialect) (s : Insert γ)
    (shown : ∀ x ∈ (Form.insert s).projections, S (u x).projection (v x).projection)
    (h : ∀ x ∈ (Form.insert s).elsewhere, Part.Similar S (u x) (v x))
    (refused : ∀ e ∈ s.refusals d, S (fail e) (fail e))
    (raws : ∀ text ∈ (Form.insert s).raws, Spellable S text) :
    S ((s.map u).draft d) ((s.map v).draft d) := by
  obtain ⟨table?, columns, source?⟩ := s
  cases table? with
  | none => exact refused _ (by simp [Insert.refusals])
  | some t =>
      refine hS.append (hS.append (hS.append (hS.word rfl) (hS.ident _)) ?_) ?_
      · show S (if columns.isEmpty then nothing else _) (if columns.isEmpty then nothing else _)
        split
        · exact hS.nothing
        · exact hS.append (hS.word rfl)
            (hS.parens (hS.sepBy rfl (forall₂_map fun _ _ => hS.ident _)))
      · rcases source? with _ | rows | select
        · show S (if columns.isEmpty then _ else _) (if columns.isEmpty then _ else _)
          split
          · exact defaultsDraft_uniform hS d
          · next hc => exact refused _ (by simp [Insert.refusals, hc])
        · exact hS.append (hS.word rfl) (valuesDraft_uniform hS h)
        · exact hS.append (hS.word rfl) (select.draft_uniform hS d shown h
            (fun e he => refused e (by simp [Insert.refusals, InsertSource.refusals, he])) raws)

/-- The same keys are found through the derived table on both sides. -/
theorem wrappedKeys_uniform (d : Dialect) {p q : Part} (h : Part.Similar S p q)
    (shown : S p.projection q.projection) {keys keys' : Select Part}
    (hkeys : S (keys.draft d) (keys'.draft d)) :
    S ((wrappedKeys d p keys).draft d) ((wrappedKeys d q keys').draft d) := by
  let derived (s : Select Part) : Part :=
    (.of (.tableAlias (.of (.select (s.map Part.node))) keyTable),
      fun _ => (s.draft d).parens ++ fixed " " ++ ident keyTable)
  have relation : Part.Similar S (derived keys) (derived keys') :=
    ⟨rfl, rfl, fun _ => hS.append (hS.append (hS.parens hkeys) (hS.word rfl)) (hS.ident _)⟩
  -- both selects are one select of pairs, seen from its two sides
  let pairs : Select (Part × Part) := .single
    { projections := [(wrappedKey p, wrappedKey q)],
      source := { relation? := some (derived keys, derived keys') } } {}
  refine pairs.draft_uniform hS d (u := Prod.fst) (v := Prod.snd) (fun x hx => ?_) (fun x hx => ?_)
    nofun nofun
  · obtain rfl : x = (wrappedKey p, wrappedKey q) := List.mem_singleton.mp hx
    exact h.wrappedKey hS shown
  · obtain rfl : x = (derived keys, derived keys') := by
      simpa [pairs, Select.elsewhere, Modifiers.before, Modifiers.after, Core.elsewhere,
        Source.parts] using hx
    exact relation

section
variable {d : Dialect} {r : Rows γ} (h : r.Similar S d u v)
include h

theorem Rows.filters_uniform : S (clause " WHERE " " AND " (Part.conjuncts (r.filters.map u)))
    (clause " WHERE " " AND " (Part.conjuncts (r.filters.map v))) :=
  Part.conjuncts_uniform hS rfl _ fun x hx => h.after x (by simp [Rows.after, hx])

theorem Rows.inPlace_uniform : S ((r.map u).inPlace d) ((r.map v).inPlace d) := by
  have ordered := ordersDraft_uniform hS (u := u) (v := v) r.orders fun x hx =>
    h.after x (by simp [Rows.after, hx])
  have limited := limitDraft_uniform hS (u := u) (v := v) d r.limit? none
    (fun x hx => h.after x (by simp [Rows.after, Option.mem_def.mp hx])) (by simp)
  exact hS.append (hS.append (Rows.filters_uniform hS h) ordered) limited

theorem Rows.restriction_uniform {key : γ} (hkey : key ∈ r.key?)
    (hrelation : r.source.relation?.isNone = false) :
    S ((r.map u).restriction d (u key)) ((r.map v).restriction d (v key)) := by
  have similar := h.key key hkey
  have keys : S (((r.map u).keys (u key)).draft d) (((r.map v).keys (v key)).draft d) := by
    refine (r.keys key).draft_uniform hS d (u := u) (v := v) (fun x hx => ?_) (fun x hx => ?_)
      (fun e he => ?_) nofun
    · obtain rfl : x = key := List.mem_singleton.mp hx
      exact h.keyShown x hkey
    · obtain hx | hx : x ∈ r.source.parts ∨ x ∈ r.after := by
        simpa [Rows.elsewhere_keys] using hx
      · exact h.source x hx
      · exact h.after x hx
    · refine h.refused e ?_
      simpa [Rows.keys, Select.refusals, Core.refusals, hrelation] using he
  refine hS.append (hS.append (similar.operand hS _) (hS.word rfl)) (hS.parens ?_)
  -- MySQL reads the keys through a derived table
  cases d with
  | mysql => exact wrappedKeys_uniform hS _ similar (h.keyShown key hkey) keys
  | _ => exact keys

theorem Rows.restrict_uniform (missingKey : Gap) (hrelation : r.source.relation?.isNone = false)
    (foreign : r.isNative d = false)
    (lacking : r.lacksKey d = true →
      S (fail (.incomplete missingKey)) (fail (.incomplete missingKey)))
    {a b : Draft} (hab : S a b) :
    S ((r.map u).restrict d missingKey a) ((r.map v).restrict d missingKey b) := by
  simp only [Rows.restrict, Rows.needsKey_map]
  split
  · next needed =>
      cases hk : r.key? with
      | none =>
          simp only [Rows.map, hk, Option.map_none]
          exact lacking (Rows.lacksKey_eq_true needed foreign hk)
      | some key =>
          have restricted := Rows.restriction_uniform hS h hk hrelation
          simp only [Rows.map, hk, Option.map_some] at restricted ⊢
          exact hS.append (hS.append hab (hS.word rfl)) restricted
  · exact hS.append hab (Rows.filters_uniform hS h)

end

/-! ### UPDATE and DELETE -/

section
variable (d : Dialect)

theorem Update.draft_uniform (s : Update γ)
    (shown : ∀ x ∈ (Form.update s).projections, S (u x).projection (v x).projection)
    (h : ∀ x ∈ (Form.update s).parts, Part.Similar S (u x) (v x))
    (refused : ∀ e ∈ s.refusals d, S (fail e) (fail e)) :
    S ((s.map u).draft d) ((s.map v).draft d) := by
  obtain ⟨rows, assignments⟩ := s
  have similar : rows.Similar S d u v := by
    refine ⟨fun x hx => h x ?_, fun x hx => h x ?_, fun x hx => h x ?_,
      fun x hx => shown x (Option.mem_toList.mpr hx), fun e he => refused e ?_⟩
    · simp [Form.parts, Update.children, hx]
    · simp [Form.parts, Update.children, hx]
    · simp [Form.parts, Option.mem_def.mp hx]
    · simp [Update.refusals, he]
  simp only [Update.draft, Update.map, Rows.isNative_map, List.isEmpty_map]
  cases hr : rows.source.relation? with
  | none =>
      simp only [Rows.map, Source.map, hr, Option.map_none]
      exact refused _ (by simp [Update.refusals, hr])
  | some relation =>
      have target := (similar.source relation (by simp [Source.parts, hr])).item
      have assigned : ∀ x ∈ assignments, Part.Similar S (u x) (v x) := fun x hx =>
        h x (by simp [Form.parts, Update.children, hx])
      have set := hS.append
        (hS.fixed " SET " (isWording_ofList rfl)) (Part.list_uniform hS assigned)
      have source := rows.source.draft_uniform hS d similar.source similar.refused
      have clauses := Rows.inPlace_uniform hS similar
      simp only [Rows.map, Source.map, hr, Option.map_some] at clauses source ⊢
      split_ifs with empty native
      · exact refused _ (by simp [Update.refusals, empty])
      · exact hS.append (hS.append (hS.append (hS.word rfl) source) set) clauses
      · have foreign : rows.isNative d = false := Bool.eq_false_iff.mpr native
        have restricted := Rows.restrict_uniform hS similar .updateKey (by simp [hr]) foreign
          (fun lacks => refused _ (by simp [Update.refusals, lacks]))
          (hS.append (hS.append (hS.fixed "UPDATE " (isWording_ofList rfl)) target) set)
        simpa only [Rows.map, Source.map, hr, Option.map_some] using restricted

theorem Delete.draft_uniform (s : Delete γ)
    (shown : ∀ x ∈ (Form.delete s).projections, S (u x).projection (v x).projection)
    (h : ∀ x ∈ (Form.delete s).parts, Part.Similar S (u x) (v x))
    (refused : ∀ e ∈ s.refusals d, S (fail e) (fail e)) :
    S ((s.map u).draft d) ((s.map v).draft d) := by
  obtain ⟨rows⟩ := s
  have similar : rows.Similar S d u v := by
    refine ⟨fun x hx => h x ?_, fun x hx => h x ?_, fun x hx => h x ?_,
      fun x hx => shown x (Option.mem_toList.mpr hx), fun e he => refused e ?_⟩
    · simp [Form.parts, Delete.children, hx]
    · simp [Form.parts, Delete.children, hx]
    · simp [Form.parts, Option.mem_def.mp hx]
    · simp [Delete.refusals, he]
  simp only [Delete.draft, Delete.map, Rows.isNative_map]
  cases hr : rows.source.relation? with
  | none =>
      simp only [Rows.map, Source.map, hr, Option.map_none]
      exact refused _ (by simp [Delete.refusals, hr])
  | some relation =>
      have target := similar.source relation (by simp [Source.parts, hr])
      have source := rows.source.draft_uniform hS d similar.source similar.refused
      have clauses := Rows.inPlace_uniform hS similar
      simp only [Rows.map, Source.map, hr, Option.map_some, List.isEmpty_map] at clauses source ⊢
      split_ifs with native
      · have named := hS.onlyIf (!rows.source.joins.isEmpty)
          (hS.append (target.deleteTarget hS) (hS.fixed " " (isWording_ofList rfl)))
        exact hS.append (hS.append (hS.append (hS.append (hS.word rfl) named) (hS.word rfl)) source)
          clauses
      · have foreign : rows.isNative d = false := Bool.eq_false_iff.mpr native
        have restricted := Rows.restrict_uniform hS similar .deleteKey (by simp [hr]) foreign
          (fun lacks => refused _ (by simp [Delete.refusals, lacks]))
          (hS.append (hS.fixed "DELETE FROM " (isWording_ofList rfl)) target.item)
        simpa only [Rows.map, Source.map, hr, Option.map_some] using restricted

/-! ### All constructs -/

section
variable (g : Form γ) (shown : ∀ x ∈ g.projections, S (u x).projection (v x).projection)
  (h : ∀ x ∈ g.elsewhere, Part.Similar S (u x) (v x))
  (refused : ∀ e ∈ g.refusals d, S (fail e) (fail e)) (raws : ∀ text ∈ g.raws, Spellable S text)
  (slots : ∀ b ∈ g.own, S (slot b) (slot b))
include shown h refused raws slots

theorem Form.item_split : S ((g.map u).item d) ((g.map v).item d) := by
  cases g with
  | table t => exact t.draft_uniform hS
  | tableAlias relation name =>
      exact hS.append (hS.append ((h relation (by simp [elsewhere, parts, children])).operand hS _)
        (hS.word rfl)) (hS.ident _)
  | column c => exact c.draft_uniform hS
  | unqualified c => exact hS.ident _
  | sql text => exact (raws text (List.mem_singleton_self text)).asGiven
  | quoted value | casted value _ => exact slots _ (by simp [own])
  | param b => exact slots _ (by simp [own])
  | bool b => exact hS.fixed _ (isWording_boolText d b)
  | star => exact hS.word rfl
  | list items => exact Part.list_uniform hS h
  | unary op operand =>
      refine op.draft_uniform hS d (h operand (by simp [elsewhere, parts, children])) ?_
      rintro text rfl
      exact (raws text (List.mem_singleton_self text)).asGiven
  | binary op left right =>
      refine op.draft_uniform hS (h left (by simp [elsewhere, parts, children]))
        (h right (by simp [elsewhere, parts, children])) d ?_
      rintro text rfl
      exact (raws text (List.mem_singleton_self text)).asGiven
  | and items => exact conjunction_uniform hS h
  | matching left right escape? sensitive negated =>
      exact matchingDraft_uniform hS (h left (by simp [elsewhere, parts, children]))
        (h right (by simp [elsewhere, parts, children])) d escape? sensitive negated
  | regexp left right sensitive negated =>
      exact regexpDraft_uniform hS (h left (by simp [elsewhere, parts, children]))
        (h right (by simp [elsewhere, parts, children])) d sensitive negated refused
  | call c => exact c.draft_uniform hS h raws
  | extract expr field =>
      exact extractDraft_uniform hS d field (h expr (by simp [elsewhere, parts, children])) refused
        (raws field (List.mem_singleton_self field))
  | cast expr typeName =>
      exact castDraft_uniform hS typeName (h expr (by simp [elsewhere, parts, children]))
        (raws typeName (List.mem_singleton_self typeName))
  | cases c => exact c.draft_uniform hS h
  | join j => exact j.draft_uniform hS d h refused
  | sortKey k => exact k.draft_uniform hS d (h k.expr (by simp [elsewhere, parts, children]))
  | windowed expr w =>
      exact overDraft_uniform hS (h expr (by simp [elsewhere, parts, children])) w fun x hx =>
        h x (by simp [elsewhere, parts, children, hx])
  | window w => exact w.draft_uniform hS h
  | namedWindow w => exact w.draft_uniform hS h
  | cte c => exact c.draft_uniform hS (h c.relation (by simp [elsewhere, parts, children]))
  | values rows => exact valuesDraft_uniform hS h
  | select s => exact hS.parens (s.draft_uniform hS d shown h refused raws)
  | insert s => exact s.draft_uniform hS d shown h refused raws
  | update s => exact s.draft_uniform hS d shown h refused
  | delete s => exact s.draft_uniform hS d shown h refused

/-- **A construct is written uniformly** at every place, whatever the implicit names of the parts
outside of SELECT lists. -/
theorem Form.draft_split (place : Place) :
    S ((g.map u).draft d place) ((g.map v).draft d place) := by
  have item := Form.item_split hS d g shown h refused raws slots
  cases place with
  | item =>
      rw [draft_item, draft_item]
      exact item
  | statement =>
      rw [draft_statement, draft_statement]
      cases g with
      | select s => exact s.draft_uniform hS d shown h refused raws
      | _ => exact item
  | element =>
      rw [draft_element, draft_element]
      cases g with
      | unary op operand =>
          cases op with
          | grouping => exact (h operand (by simp [elsewhere, parts, children])).item
          | _ => exact item
      | _ => exact item
  -- only the conjunction of two has bounds
  | bounds =>
      rw [draft_bounds, draft_bounds]
      cases g with
      | and items =>
          rcases items with _ | ⟨low, _ | ⟨high, _ | _⟩⟩
          · exact item
          · exact item
          · exact boundsDraft_uniform hS (h low (by simp [elsewhere, parts, children]))
              (h high (by simp [elsewhere, parts, children]))
          · exact item
      | _ => exact item

end

/-- A construct is written uniformly if its parts are alike. -/
theorem Form.draft_uniform (g : Form γ) (h : ∀ x ∈ g.parts, Part.Alike S (u x) (v x))
    (refused : ∀ e ∈ g.refusals d, S (fail e) (fail e)) (raws : ∀ text ∈ g.raws, Spellable S text)
    (slots : ∀ b ∈ g.own, S (slot b) (slot b)) (place : Place) :
    S ((g.map u).draft d place) ((g.map v).draft d place) :=
  g.draft_split hS d (fun x hx => (h x (mem_parts_iff.mpr (.inl hx))).projection hS)
    (fun x hx => (h x (mem_parts_iff.mpr (.inr hx))).similar) refused raws slots place

end

end

/-! ### Properties of drafts -/

/-- **What is kept by `++` and by parentheses holds of every draft**: it has to hold of single plain
lexemes, of the slots of the tree, of what the caller spells in it, and of the refusals. -/
theorem Node.draft_kept {P : Draft → Prop} (hP : Congruence fun a _ => P a) (d : Dialect) (n : Node)
    (slots : ∀ b ∈ n.leaves, P (slot b)) (raws : ∀ text ∈ n.raws, Spellable (fun a _ => P a) text)
    (refused : ∀ e ∈ n.refusals d, P (fail e)) (place : Place) : P (n.draft d place) := by
  induction n using Node.induction generalizing place with
  | step form ih =>
      rw [leaves_of] at slots
      rw [raws_of] at raws
      rw [refusals_of] at refused
      rw [draft_of]
      have below {γ : Type} {f : Node → List γ} {n : Node} (hn : n ∈ form.parts) {c : γ}
          (hc : c ∈ f n) (own : List γ) : c ∈ own ++ form.parts.flatMap f :=
        List.mem_append_right _ (List.mem_flatMap.mpr ⟨n, hn, hc⟩)
      refine Form.draft_uniform hP d form (u := part d) (v := part d)
        (fun n hn => ⟨rfl, rfl, ?_, ?_⟩) ?_ ?_ ?_ place
      · exact fun place => ih n hn (fun b hb => slots b (below hn hb _))
          (fun text ht => raws text (below hn ht _)) (fun e he => refused e (below hn he _)) place
      · exact fun name hname => (raws name (below hn (mem_raws_of_outline hname) _)).asGiven
      · exact fun e he => refused e (List.mem_append_left _ he)
      · exact fun text ht => raws text (List.mem_append_left _ ht)
      · exact fun b hb => slots b (List.mem_append_left _ hb)

end SqlTree
