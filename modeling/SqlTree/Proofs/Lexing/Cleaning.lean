import SqlTree.Proofs.Lexing.Comment
import SqlTree.Proofs.Lexing.Runs

/-!
# SqlTree — Proofs — the text of a comment, cleaned

The loop that takes out the marks comes to its end on every text (`Comment.settles_settle`).  What
is left then is made of characters of the text in their order; the blanks at its ends go last.

* `Comment.isCleaned_clean`: what may be relied on in a cleaned text, for every text.
-/

namespace SqlTree

/-! ### Trimmed texts -/

namespace Text

/-- There is no blank at either end. -/
structure IsTrimmed (cs : List Char) : Prop where
  first : ∀ c ∈ cs.head?, isBlank c = false
  last : ∀ c ∈ cs.getLast?, isBlank c = false

theorem isTrimmed_trim (cs : List Char) : IsTrimmed (trim cs) := by
  refine ⟨?_, ?_⟩
  · intro c hc
    -- what is taken off at the end leaves the beginning as it is
    obtain ⟨rest, hrest⟩ := Comment.trim_prefix_dropWhile cs
    refine head?_dropWhile cs c ?_
    rw [← hrest, List.head?_append, Option.mem_def.mp hc]
    rfl
  · intro c hc
    rw [trim, List.getLast?_reverse] at hc
    exact head?_dropWhile _ c hc

theorem trim_of_isTrimmed {cs : List Char} (h : IsTrimmed cs) : trim cs = cs := by
  have last : ∀ c ∈ cs.reverse.head?, isBlank c = false := by
    rw [List.head?_reverse]
    exact h.last
  rw [trim, (takeWhile_dropWhile_of_head? h.first).2, (takeWhile_dropWhile_of_head? last).2,
    List.reverse_reverse]

end Text

namespace Comment

/-! ### What the loop leaves -/

theorem dropPairs_sublist (first second : Char) (cs : List Char) :
    (dropPairs first second cs).Sublist cs := by
  fun_induction dropPairs first second cs with
  | case1 c next cs _ ih => exact (ih.cons next).cons c
  | case2 c next cs _ ih => exact ih.cons_cons c
  | case3 cs _ => exact List.Sublist.refl cs

namespace Settles

variable {cs left : List Char}

/-- Nothing but marks is taken out. -/
theorem sublist (h : Settles cs left) : left.Sublist cs := by
  induction h with
  | done _ => exact List.Sublist.refl _
  | round _ _ ih => exact ih.trans ((dropPairs_sublist _ _ _).trans (dropPairs_sublist _ _ _))

/-- A text without marks is left as it is. -/
theorem eq_of_unmarked (h : Settles cs left) (none : hasMark cs = false) : left = cs := by
  cases h with
  | done _ => rfl
  | round marked _ => exact absurd (marked.symm.trans none) (by decide)

end Settles

/-! ### Marks as pieces of a text -/

theorem hasPair_iff {first second : Char} {cs : List Char} :
    hasPair first second cs = true ↔ [first, second] <:+: cs := by
  constructor
  · intro h
    fun_induction hasPair first second cs with
    | case1 c next cs ih =>
        rcases Bool.or_eq_true_iff.mp h with here | later
        · obtain ⟨rfl, rfl⟩ : c = first ∧ next = second := by simpa using here
          exact ⟨[], cs, rfl⟩
        · exact (ih later).trans (List.suffix_cons c (next :: cs)).isInfix
    | case2 | case3 => cases h
  · rintro ⟨before, after, rfl⟩
    refine hasPair_append_left (hasPair_append_right ?_)
    simp [hasPair]

theorem hasMark_eq_false_iff {cs : List Char} :
    hasMark cs = false ↔ ¬['/', '*'] <:+: cs ∧ ¬['*', '/'] <:+: cs := by
  rw [hasMark, Bool.or_eq_false_iff, Bool.eq_false_iff, Bool.eq_false_iff, ne_eq, ne_eq,
    hasPair_iff, hasPair_iff]

/-! ### Cleaned texts -/

/-- What cleaning makes of a text. -/
structure IsCleaned (text result : String) : Prop where
  /-- The loop comes to an end, and its result is trimmed. -/
  settles : ∃ left, Settles text.toList left ∧ result = String.ofList (Text.trim left)
  no_opening : ¬['/', '*'] <:+: result.toList
  no_closing : ¬['*', '/'] <:+: result.toList
  trimmed : Text.IsTrimmed result.toList
  sublist : result.toList.Sublist text.toList
  /-- A text without marks is only trimmed. -/
  unmarked : ¬['/', '*'] <:+: text.toList → ¬['*', '/'] <:+: text.toList →
    result = String.ofList (Text.trim text.toList)
  /-- There is nothing left to clean. -/
  again : clean result = result

theorem clean_of_unmarked {text : String} (h : hasMark text.toList = false) :
    clean text = String.ofList (Text.trim text.toList) := by
  have settled := settles_settle (le_refl text.toList.length)
  rw [clean, settled.eq_of_unmarked h]

/-- **A cleaned text** has no marks and no blanks at its ends, it is made of characters of the text
in their order, and of all of them but the blanks at the ends if there is no mark.  Cleaned once
more it stays as it is. -/
theorem isCleaned_clean (text : String) : IsCleaned text (clean text) := by
  have settled := settles_settle (le_refl text.toList.length)
  have unmarked := hasMark_eq_false_iff.mp (hasMark_clean text)
  have trimmed : Text.IsTrimmed (clean text).toList := by
    rw [clean, String.toList_ofList]
    exact Text.isTrimmed_trim _
  refine ⟨⟨_, settled, rfl⟩, unmarked.1, unmarked.2, trimmed, ?_, fun no_opening no_closing => ?_,
    ?_⟩
  · rw [clean, String.toList_ofList]
    exact (trim_isInfix _).sublist.trans settled.sublist
  · exact clean_of_unmarked (hasMark_eq_false_iff.mpr ⟨no_opening, no_closing⟩)
  · rw [clean_of_unmarked (hasMark_clean text), Text.trim_of_isTrimmed trimmed,
      String.ofList_toList]

/-- Taking out a mark may leave another one, which goes in the next round. -/
example : clean " a //** b */" = "a  b" := by decide +kernel

end Comment

end SqlTree
