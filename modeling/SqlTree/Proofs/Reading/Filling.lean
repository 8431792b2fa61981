import Mathlib.Data.List.Nodup
import SqlTree.Proofs.Reading.Agreement
import SqlTree.Proofs.Reading.Binding

/-!
# SqlTree — Proofs — the slots of a query filled by name

Values may be put into a query one name at a time, each time at all slots of that name, or all at
once from a list of pairs, where the last pair of a name counts.  To bind one list and then another
is to bind them one after the other as one list (`Query.bindAll_bindAll`), and a single pair is a
list of one (`Query.bind_eq_bindAll`); so the two ways agree (`Query.foldl_bind`).

* `Bind.FilledBy`: what becomes of one slot, said without looking anything up.
* `Query.values_eq_ok_iff`, `Query.values_eq_error_iff`: when a query has all its values, and
  which slot is at fault when it has not.
* `Query.bindAll_filledBy`: binding all at once is binding one by one, slot by slot, in any order
  that keeps the order of the values of each name.
-/

namespace SqlTree

/-- A slot before and after the pairs are bound: it has the last value listed for its name, or it is
as it was if no pair has its name. -/
inductive Bind.FilledBy (pairs : List (String × Value)) : Bind → Bind → Prop where
  | last {name : String} {v : Value} {before after : List (String × Value)} (old? : Option Value)
      (listed : pairs = before ++ (name, v) :: after) (none_after : ∀ p ∈ after, p.1 ≠ name) :
      FilledBy pairs ⟨some name, old?⟩ ⟨some name, some v⟩
  | kept (b : Bind) (unlisted : ∀ p ∈ pairs, b.name? ≠ some p.1) : FilledBy pairs b b

/-! ### The value of a name -/

section
variable {pairs : List (String × Value)} {name : String}

/-- Of two lists one after the other, the first one counts where the second has no value. -/
theorem valueOf?_append (xs ys : List (String × Value)) (name : String) :
    valueOf? (xs ++ ys) name = (valueOf? ys name).or (valueOf? xs name) := by
  rw [valueOf?, List.reverse_append, List.lookup_append]
  rfl

theorem exists_of_valueOf? {v : Value} (h : valueOf? pairs name = some v) :
    ∃ before after, pairs = before ++ (name, v) :: after ∧ ∀ p ∈ after, p.1 ≠ name := by
  obtain ⟨after, before, reversed, differs⟩ := List.lookup_eq_some_iff.mp h
  refine ⟨before.reverse, after.reverse, ?_, ?_⟩
  · rw [← List.reverse_reverse pairs, reversed]
    simp
  · intro p hp
    have apart := differs p (List.mem_reverse.mp hp)
    exact fun same => absurd same.symm (by simpa using apart)

theorem valueOf?_eq_none (h : valueOf? pairs name = none) : ∀ p ∈ pairs, p.1 ≠ name := by
  intro p hp
  have apart := List.lookup_eq_none_iff.mp h p (List.mem_reverse.mpr hp)
  exact fun same => absurd same.symm (by simpa using apart)

/-- The value of a name depends only on the pairs with that name. -/
theorem valueOf?_filter (pairs : List (String × Value)) (name : String) :
    valueOf? (pairs.filter (·.1 == name)) name = valueOf? pairs name := by
  induction pairs with
  | nil => rfl
  | cons p pairs ih =>
      have single := valueOf?_append [p] pairs name
      by_cases same : p.1 = name
      · rw [List.filter_cons_of_pos (by simpa using same)]
        rw [← List.singleton_append, valueOf?_append, ih]
        exact single.symm
      · have absent : valueOf? [p] name = none := by
          have differs : (name == p.1) = false := beq_eq_false_iff_ne.mpr (Ne.symm same)
          rw [valueOf?, List.reverse_singleton, List.lookup_cons, differs]
          rfl
        rw [List.filter_cons_of_neg (by simpa using same), ih]
        rw [absent, Option.or_none] at single
        exact single.symm

end

/-! ### One slot -/

namespace Bind

theorem fill_fill (xs ys : List (String × Value)) (b : Bind) :
    (b.fill xs).fill ys = b.fill (xs ++ ys) := by
  obtain ⟨_ | name, value?⟩ := b
  · rfl
  · simp only [fill, Option.bind_some, valueOf?_append, Option.or_assoc]

theorem filledBy_fill (pairs : List (String × Value)) (b : Bind) :
    FilledBy pairs b (b.fill pairs) := by
  obtain ⟨_ | name, value?⟩ := b
  · exact .kept _ fun p _ => nofun
  · cases listed : valueOf? pairs name with
    | none =>
        have same : fill pairs ⟨some name, value?⟩ = ⟨some name, value?⟩ := by
          simp only [fill, Option.bind_some, listed, Option.none_or]
        rw [same]
        refine .kept _ fun p hp named => ?_
        exact valueOf?_eq_none listed p hp (Option.some.inj named).symm
    | some v =>
        have last : fill pairs ⟨some name, value?⟩ = ⟨some name, some v⟩ := by
          simp only [fill, Option.bind_some, listed, Option.some_or]
        obtain ⟨before, after, split, none_after⟩ := exists_of_valueOf? listed
        rw [last]
        exact .last value? split none_after

end Bind

/-! ### All slots -/

namespace Query

variable (q : Query)

theorem bindAll_bindAll (xs ys : List (String × Value)) :
    (q.bindAll xs).bindAll ys = q.bindAll (xs ++ ys) := by
  simp only [bindAll_eq, List.map_map, Function.comp_def, Bind.fill_fill]

theorem bindAll_nil : q.bindAll [] = q := by
  rw [bindAll_eq]
  have same : q.binds.map (Bind.fill []) = q.binds := by
    refine (List.map_congr_left fun b _ => ?_).trans (List.map_id _)
    obtain ⟨_ | name, value?⟩ := b <;> rfl
  rw [same]

theorem bind_eq_bindAll (name : String) (v : Value) : q.bind name v = q.bindAll [(name, v)] := by
  rw [bindAll_eq]
  refine congrArg (Query.mk q.sql · q.style) (List.map_congr_left fun b _ => ?_)
  obtain ⟨_ | other, value?⟩ := b
  · rfl
  · by_cases same : other = name
    · subst same
      simp [Bind.fill, valueOf?]
    · have differs : (other == name) = false := beq_eq_false_iff_ne.mpr same
      simp [Bind.fill, valueOf?, same, List.lookup_cons, differs]

/-- **To bind pair after pair is to bind them all.** -/
theorem foldl_bind (pairs : List (String × Value)) :
    pairs.foldl (fun q p => q.bind p.1 p.2) q = q.bindAll pairs := by
  induction pairs generalizing q with
  | nil => exact q.bindAll_nil.symm
  | cons p pairs ih =>
      calc pairs.foldl (fun q p => q.bind p.1 p.2) (q.bind p.1 p.2)
          = (q.bind p.1 p.2).bindAll pairs := ih _
        _ = (q.bindAll [p]).bindAll pairs := by rw [bind_eq_bindAll]
        _ = q.bindAll (p :: pairs) := q.bindAll_bindAll [p] pairs

/-- Only the order of the values of one name matters. -/
theorem bindAll_congr {pairs pairs' : List (String × Value)}
    (h : ∀ name, pairs'.filter (·.1 == name) = pairs.filter (·.1 == name)) :
    q.bindAll pairs' = q.bindAll pairs := by
  have same : valueOf? pairs' = valueOf? pairs := by
    funext name
    rw [← valueOf?_filter pairs' name, h name, valueOf?_filter]
  have fills : Bind.fill pairs' = Bind.fill pairs := by
    funext b
    rw [Bind.fill, Bind.fill, same]
  rw [bindAll_eq, bindAll_eq, fills]

/-- A name that is listed once has the same pair in any order. -/
theorem filter_eq_of_perm {pairs pairs' : List (String × Value)} (h : pairs'.Perm pairs)
    (distinct : (pairs.map Prod.fst).Nodup) (name : String) :
    pairs'.filter (·.1 == name) = pairs.filter (·.1 == name) := by
  have named := h.filter (·.1 == name)
  have once : (pairs.filter (·.1 == name)).length ≤ 1 :=
    calc (pairs.filter (·.1 == name)).length
        = pairs.countP (·.1 == name) := List.countP_eq_length_filter.symm
      _ = (pairs.map Prod.fst).count name := by rw [List.count, List.countP_map]; rfl
      _ ≤ 1 := List.nodup_iff_count_le_one.mp distinct name
  rcases hpairs : pairs.filter (·.1 == name) with _ | ⟨p, _ | ⟨p', rest⟩⟩
  · rw [hpairs] at named ⊢
    exact named.eq_nil
  · rw [hpairs] at named ⊢
    exact List.perm_singleton.mp named
  · rw [hpairs, List.length_cons, List.length_cons] at once
    omega

/-! ### The values of a query -/

theorem values_of_binds {bs : List Bind} {vs : List Value}
    (h : bs.map (·.value?) = vs.map some) : bs.mapM Bind.value = .ok vs := by
  induction bs generalizing vs with
  | nil =>
      obtain rfl : vs = [] := List.map_eq_nil_iff.mp h.symm
      rfl
  | cons b bs ih =>
      obtain _ | ⟨v, vs⟩ := vs
      · cases h
      · obtain ⟨hb, hbs⟩ := List.cons.inj h
        rw [List.mapM_cons, Bind.value_of_value hb, ih hbs]
        rfl

theorem exists_values_of_firstUnbound {bs : List Bind} (h : firstUnbound bs = none) :
    ∃ vs : List Value, bs.map (·.value?) = vs.map some := by
  induction bs with
  | nil => exact ⟨[], rfl⟩
  | cons b bs ih =>
      cases hb : b.value? with
      | none =>
          rw [firstUnbound_cons_of_none hb] at h
          cases h
      | some v =>
          rw [firstUnbound_cons_of_value hb] at h
          obtain ⟨vs, hvs⟩ := ih h
          exact ⟨v :: vs, by rw [List.map_cons, hb, hvs, List.map_cons]⟩

/-- Either every slot has its value, or there is a first one without. -/
theorem values_cases :
    (∃ vs, firstUnbound q.binds = none ∧ q.binds.map (·.value?) = vs.map some ∧
        q.values = .ok vs) ∨
      ∃ b, firstUnbound q.binds = some b ∧ q.values = .error b.unbound := by
  cases h : firstUnbound q.binds with
  | none =>
      obtain ⟨vs, hvs⟩ := exists_values_of_firstUnbound h
      exact .inl ⟨vs, rfl, hvs, values_of_binds hvs⟩
  | some b => exact .inr ⟨b, rfl, values_of_firstUnbound h⟩

theorem head?_unbound :
    q.unbound.head? = (firstUnbound q.binds).map fun b => b.name?.getD "?" := by
  rw [unbound, List.head?_map, List.head?_filter]
  rfl

theorem values_eq_ok_iff (vs : List Value) :
    q.values = .ok vs ↔ q.binds.map (·.value?) = vs.map some := by
  refine ⟨fun given => ?_, values_of_binds⟩
  rcases q.values_cases with ⟨vs', -, all, values⟩ | ⟨b, -, values⟩
  · rw [given] at values
    rwa [Except.ok.inj values]
  · rw [given] at values
    cases values

/-- The values can be had exactly if nothing is unbound. -/
theorem exists_values_iff : (∃ vs, q.values = .ok vs) ↔ q.unbound = [] := by
  rw [← List.head?_eq_none_iff, head?_unbound]
  rcases q.values_cases with ⟨vs, none, -, values⟩ | ⟨b, some, values⟩
  · simp [none, values]
  · simp [some, values]

/-- The first name that is unbound is the error. -/
theorem values_eq_error_iff (e : Error) :
    q.values = .error e ↔ ∃ name, q.unbound.head? = some name ∧ e = .unboundParameter name := by
  rw [head?_unbound]
  rcases q.values_cases with ⟨vs, none, -, values⟩ | ⟨b, some, values⟩
  · simp [none, values]
  · simp [some, values, Bind.unbound, eq_comm]

/-! ### All at once -/

/-- **Binding all at once is binding one by one.**  The query is the same either way: its text and
its style are what they were, and slot by slot it has the last value that is listed for the name of
the slot, or what it had if none is listed.  The pairs may be in any order in which the values of
each name are in the same order, so in any order at all if each name is listed once.  The values of
the query can be had exactly if no slot is without one, and otherwise the first such slot is the
error. -/
theorem bindAll_filledBy (pairs : List (String × Value)) :
    pairs.foldl (fun q p => q.bind p.1 p.2) q = q.bindAll pairs ∧
    ((q.bindAll pairs).sql = q.sql ∧ (q.bindAll pairs).style = q.style ∧
      (q.bindAll pairs).binds.map (·.name?) = q.binds.map (·.name?) ∧
      List.Forall₂ (Bind.FilledBy pairs) q.binds (q.bindAll pairs).binds) ∧
    (∀ pairs' : List (String × Value),
      (∀ name, pairs'.filter (·.1 == name) = pairs.filter (·.1 == name)) →
        q.bindAll pairs' = q.bindAll pairs) ∧
    (∀ pairs' : List (String × Value), pairs'.Perm pairs → (pairs.map Prod.fst).Nodup →
      q.bindAll pairs' = q.bindAll pairs) ∧
    (∀ vs, (q.bindAll pairs).values = .ok vs ↔
      (q.bindAll pairs).binds.map (·.value?) = vs.map some) ∧
    ((∃ vs, (q.bindAll pairs).values = .ok vs) ↔ (q.bindAll pairs).unbound = []) ∧
    ∀ e, (q.bindAll pairs).values = .error e ↔
      ∃ name, (q.bindAll pairs).unbound.head? = some name ∧ e = .unboundParameter name := by
  have filled : (q.bindAll pairs).binds = q.binds.map (Bind.fill pairs) := by
    rw [bindAll_eq]
  have slots : List.Forall₂ (Bind.FilledBy pairs) q.binds (q.bindAll pairs).binds := by
    rw [filled]
    exact List.forall₂_map_right_iff.mpr
      (List.forall₂_same.mpr fun b _ => Bind.filledBy_fill pairs b)
  refine ⟨q.foldl_bind pairs, ⟨rfl, rfl, ?_, slots⟩, fun _ => q.bindAll_congr, ?_,
    (q.bindAll pairs).values_eq_ok_iff, (q.bindAll pairs).exists_values_iff,
    (q.bindAll pairs).values_eq_error_iff⟩
  · rw [filled, List.map_map]
    rfl
  · intro pairs' perm distinct
    exact q.bindAll_congr (filter_eq_of_perm perm distinct)

/-- A slot that has a value already, one without a name, and two of one name that is listed twice,
beside a name that no slot has: the last value counts, also after a pair of another name was moved
between, and the slot without a name is the one at fault. -/
theorem bindAll_filledBy_of_repeated :
    let q : Query := ⟨"", [⟨some "a", some .null⟩, ⟨none, none⟩, ⟨some "b", none⟩,
      ⟨some "a", none⟩], .positional⟩
    let pairs : List (String × Value) :=
      [("a", .bool true), ("c", .null), ("b", .null), ("a", .bool false)]
    let moved : List (String × Value) :=
      [("b", .null), ("a", .bool true), ("a", .bool false), ("c", .null)]
    let single : List (String × Value) := [("b", .null), ("a", .bool true)]
    (∀ name, moved.filter (·.1 == name) = pairs.filter (·.1 == name)) ∧
      q.bindAll moved = q.bindAll pairs ∧
      single.reverse.Perm single ∧ (single.map Prod.fst).Nodup ∧
      q.bindAll single.reverse = q.bindAll single ∧
      (q.bindAll pairs).binds = [⟨some "a", some (.bool false)⟩, ⟨none, none⟩,
        ⟨some "b", some .null⟩, ⟨some "a", some (.bool false)⟩] ∧
      (q.bindAll pairs).values = .error (.unboundParameter "?") := by
  intro q pairs moved single
  have order : ∀ name, moved.filter (·.1 == name) = pairs.filter (·.1 == name) := by
    intro name
    by_cases a : "a" = name
    · subst a
      rfl
    · by_cases b : "b" = name
      · subst b
        rfl
      · simp [moved, pairs, List.filter_cons, a, b]
  have perm : single.reverse.Perm single := single.reverse_perm
  have distinct : (single.map Prod.fst).Nodup := by decide
  obtain ⟨-, -, reordered, -, -, -, refused⟩ := bindAll_filledBy q pairs
  obtain ⟨-, -, -, shuffled, -⟩ := bindAll_filledBy q single
  exact ⟨order, reordered moved order, perm, distinct, shuffled single.reverse perm distinct, rfl,
    (refused _).mpr ⟨"?", rfl, rfl⟩⟩

end Query

end SqlTree
