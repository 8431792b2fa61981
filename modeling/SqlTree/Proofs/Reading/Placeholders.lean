import SqlTree.Proofs.Reading.Agreement
import SqlTree.Proofs.Reading.Splice

/-!
# SqlTree — Proofs — placeholders that are names

In two styles a placeholder is a name after a mark: the name of its slot, or, for a slot without a
name, the number of the slot after a `p`.  The numbers keep slots without names apart from each
other.  Nothing keeps them apart from names: a slot may have for its name what another slot is
called by its number (`Bind.TakesPlace`), and the two have the same placeholder.

* `Collector.placeholders_eq_iff`: whatever is collected, two slots have the same placeholder if
  they have the same name, or if one of them takes the place of the other, and in no other case.
-/

namespace SqlTree

/-! ### The text around the slots -/

namespace Pieces

/-- The texts between the slots. -/
def gaps (rest : String) : List (String × Bind) → String × List String
  | [] => (rest, [])
  | slot :: slots => (slot.1, (gaps rest slots).1 :: (gaps rest slots).2)

theorem length_gaps (rest : String) (slots : List (String × Bind)) :
    (gaps rest slots).2.length = slots.length := by
  induction slots with
  | nil => rfl
  | cons slot slots ih => exact congrArg (· + 1) ih

theorem spliced_eq_spliced_gaps (style : PlaceholderStyle) (rest : String) (index : Nat)
    (slots : List (String × Bind)) :
    spliced style rest index slots =
      SqlTree.spliced (gaps rest slots) (placeholders style index (slots.map Prod.snd)) := by
  induction slots generalizing index with
  | nil => exact String.append_empty.symm
  | cons slot slots ih =>
      rw [spliced, ih, gaps, List.map_cons, placeholders_cons, spliced_cons, String.append_assoc]

end Pieces

/-- Whatever the style, a finished query has the same texts between its placeholders. -/
theorem Collector.exists_gaps (calls : List Call) :
    ∃ gaps : String × List String, gaps.2.length = (bound calls).length ∧
      ∀ style : PlaceholderStyle, (run calls {}).finish style =
        some ⟨spliced gaps (placeholders style 1 (bound calls)), bound calls, style⟩ := by
  let p : Pieces := calls.foldl Pieces.after {}
  have collected : run calls {} = p.collector := (Pieces.collector_run calls {}).symm
  have binds : p.slots.map Prod.snd = bound calls :=
    (Pieces.binds_run calls {}).trans (List.nil_append _)
  refine ⟨Pieces.gaps p.rest p.slots, ?_, fun style => ?_⟩
  · rw [Pieces.length_gaps, ← binds, List.length_map]
  · rw [collected, Pieces.finish_collector, Pieces.spliced_eq_spliced_gaps, Pieces.binds, binds]

/-! ### Names -/

namespace PlaceholderStyle

/-- A placeholder is a mark and a name. -/
def isNamed : PlaceholderStyle → Bool
  | colon | atSign => true
  | positional | numbered => false

/-- The name of a placeholder. -/
def called (index : Nat) (name? : Option String) : String := name?.getD ("p" ++ toString index)

theorem placeholder_eq_iff {style : PlaceholderStyle} (named : style.isNamed = true)
    (i j : Nat) (a? b? : Option String) :
    style.placeholder i a? = style.placeholder j b? ↔ called i a? = called j b? := by
  cases style with
  | colon | atSign => exact String.append_right_inj _
  | positional | numbered => cases named

/-- Slots that are called by their numbers are called by different names. -/
theorem called_none_inj {i j : Nat} : called i none = called j none ↔ i = j := by
  refine ⟨fun same => ?_, fun same => same ▸ rfl⟩
  have numerals : i.repr = j.repr := (String.append_right_inj "p").mp same
  rw [Nat.repr_eq_ofList_toDigits, Nat.repr_eq_ofList_toDigits, String.ofList_inj] at numerals
  exact Nat.ofDigitChars_ten_toDigits.symm.trans (numerals ▸ Nat.ofDigitChars_ten_toDigits)

end PlaceholderStyle

theorem getElem?_placeholders (style : PlaceholderStyle) (bs : List Bind) (i : Nat) :
    (placeholders style 1 bs)[i]? = bs[i]?.map fun b => style.placeholder (1 + i) b.name? :=
  List.getElem?_mapIdx

namespace Bind

/-- Both slots have a name, and it is the same. -/
def ShareName (bs : List Bind) (i j : Nat) : Prop :=
  ∃ b ∈ bs[i]?, ∃ c ∈ bs[j]?, b.name?.isSome ∧ b.name? = c.name?

/-- The second slot has no name, and the first one has for its name what the second is called by its
number. -/
def TakesPlace (bs : List Bind) (i j : Nat) : Prop :=
  ∃ b ∈ bs[i]?, ∃ c ∈ bs[j]?, c.name? = none ∧ b.name? = some ("p" ++ toString (j + 1))

end Bind

open PlaceholderStyle in
/-- **Placeholders that are names.**  A query that is finished in a style of names has the same
texts between its placeholders as in any other style, and two of its slots have the same placeholder
exactly if they have the same name, or if one of them has no name and the other has for its name
what that one is called by its number. -/
theorem Collector.placeholders_eq_iff (calls : List Call) :
    ∃ gaps : String × List String, gaps.2.length = (bound calls).length ∧
      (∀ style : PlaceholderStyle, (run calls {}).finish style =
        some ⟨spliced gaps (placeholders style 1 (bound calls)), bound calls, style⟩) ∧
      ∀ style : PlaceholderStyle, style.isNamed = true →
        ∀ i < (bound calls).length, ∀ j < (bound calls).length, i ≠ j →
          ((placeholders style 1 (bound calls))[i]? = (placeholders style 1 (bound calls))[j]? ↔
            Bind.ShareName (bound calls) i j ∨
              Bind.TakesPlace (bound calls) i j ∨ Bind.TakesPlace (bound calls) j i) := by
  obtain ⟨gaps, length, finished⟩ := exists_gaps calls
  refine ⟨gaps, length, finished, fun style named i hi j hj apart => ?_⟩
  have first := List.getElem?_eq_getElem hi
  have second := List.getElem?_eq_getElem hj
  generalize (bound calls)[i] = b at first
  generalize (bound calls)[j] = c at second
  rw [getElem?_placeholders, getElem?_placeholders, first, second, Option.map_some,
    Option.map_some, Option.some_inj, placeholder_eq_iff named]
  simp only [Bind.ShareName, Bind.TakesPlace, first, second, Option.mem_def, Option.some_inj,
    exists_eq_left']
  cases hb : b.name? with
  | none =>
      cases hc : c.name? with
      -- two numbers
      | none => simp [called_none_inj, apart]
      | some name => simp [called, Nat.add_comm, eq_comm]
  | some name =>
      cases hc : c.name? with
      | none => simp [called, Nat.add_comm]
      | some name' => simp [called]

/-- The slots of one name have one placeholder, and the slot between them another. -/
theorem Collector.placeholders_eq_iff_of_repeated :
    let calls : List Call :=
      [.addBind ⟨some "id", none⟩, .pushText ", ", .addBind ⟨none, some (.integer 1)⟩,
        .pushText ", ", .addBind ⟨some "id", none⟩]
    let texts := placeholders .colon 1 (bound calls)
    PlaceholderStyle.colon.isNamed = true ∧ (bound calls).length = 3 ∧
      texts[0]? = texts[2]? ∧ texts[0]? ≠ texts[1]? := by
  intro calls texts
  obtain ⟨-, -, -, same⟩ := placeholders_eq_iff calls
  have repeated := same .colon rfl 0 (by decide) 2 (by decide) (by decide)
  have between := same .colon rfl 0 (by decide) 1 (by decide) (by decide)
  refine ⟨rfl, rfl, repeated.mpr (.inl ⟨_, rfl, _, rfl, rfl, rfl⟩), fun h => ?_⟩
  rcases between.mp h with ⟨_, ⟨⟩, _, ⟨⟩, _, ⟨⟩⟩ | ⟨_, ⟨⟩, _, ⟨⟩, _, taken⟩ | ⟨_, ⟨⟩, _, ⟨⟩, ⟨⟩, _⟩
  exact absurd taken (by decide)

/-- The first slot has no name and the second is called `p1`: both are written `:p1`, although they
do not have the same name. -/
theorem Collector.placeholder_taken :
    let calls : List Call :=
      [.addBind ⟨none, some (.integer 1)⟩, .pushText ", ", .addBind ⟨some "p1", some (.integer 2)⟩]
    let texts := placeholders .colon 1 (bound calls)
    (run calls {}).finish .colon = some ⟨":p1, :p1", bound calls, .colon⟩ ∧
      ¬(texts[0]? = texts[1]? ↔ Bind.ShareName (bound calls) 0 1) := by
  intro calls texts
  refine ⟨?_, fun same => ?_⟩
  · exact Pieces.finish_foldl_after .colon calls
  · obtain ⟨_, ⟨⟩, _, _, ⟨⟩, _⟩ := same.mp rfl

end SqlTree
