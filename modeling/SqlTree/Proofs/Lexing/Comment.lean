import Mathlib.Data.List.Infix
import SqlTree.Sql.Comment

/-!
# SqlTree — Proofs — comments hold no marks

A text is cleaned of the marks that open and close a comment by a loop: as long as there is a mark
somewhere, all marks are taken out, and what stood around them may then be a mark.  `Settles` is
that loop, run to its end.  A round that finds a mark makes the text shorter, so that every text
settles in no more rounds than it is long (`settles_settle`) and no mark is left (`hasMark_clean`).
Texts without marks have none when they are joined with blanks between (`hasMark_intercalate`).
-/

namespace SqlTree.Comment

section
variable {first second : Char}

theorem length_dropPairs_le (cs : List Char) :
    (dropPairs first second cs).length ≤ cs.length := by
  fun_induction dropPairs first second cs with
  | case1 c next cs _ ih => exact ih.trans (Nat.le_add_right _ 2)
  | case2 c next cs _ ih => exact Nat.succ_le_succ ih
  | case3 cs _ => exact le_rfl

/-- A pair that is there is taken out. -/
theorem length_dropPairs_lt {cs : List Char} (h : hasPair first second cs = true) :
    (dropPairs first second cs).length < cs.length := by
  fun_induction dropPairs first second cs with
  | case1 c next cs _ _ =>
      exact (length_dropPairs_le cs).trans_lt (Nat.lt_add_of_pos_right Nat.two_pos)
  | case2 c next cs apart ih =>
      have later : hasPair first second (next :: cs) = true := by
        simpa [hasPair, apart] using h
      exact Nat.succ_lt_succ (ih later)
  | case3 cs short =>
      rcases cs with _ | ⟨c, _ | ⟨next, cs⟩⟩
      · cases h
      · cases h
      · exact absurd rfl (short c next cs)

/-- A text without the pair stays as it is. -/
theorem dropPairs_of_hasPair_eq_false {cs : List Char} (h : hasPair first second cs = false) :
    dropPairs first second cs = cs := by
  fun_induction dropPairs first second cs with
  | case1 c next cs pair _ => simp [hasPair, pair] at h
  | case2 c next cs apart ih =>
      rw [hasPair, Bool.or_eq_false_iff] at h
      rw [ih h.2]
  | case3 => rfl

theorem hasPair_append_left {as bs : List Char} (h : hasPair first second as = true) :
    hasPair first second (as ++ bs) = true := by
  fun_induction hasPair first second as with
  | case1 c next as ih =>
      rw [List.cons_append, List.cons_append, hasPair]
      rw [Bool.or_eq_true] at h ⊢
      exact h.imp_right ih
  | case2 | case3 => cases h

theorem hasPair_append_right {as bs : List Char} (h : hasPair first second bs = true) :
    hasPair first second (as ++ bs) = true := by
  induction as with
  | nil => exact h
  | cons a as ih =>
      cases hrest : as ++ bs with
      | nil => rw [hrest] at ih; cases ih
      | cons next rest =>
          rw [List.cons_append, hrest, hasPair, ← hrest, ih, Bool.or_true]

/-- A character that is neither of the two keeps the texts on its sides apart. -/
theorem hasPair_append_cons {c : Char} (hfirst : c ≠ first) (hsecond : c ≠ second)
    (as bs : List Char) : hasPair first second (as ++ c :: bs) =
      (hasPair first second as || hasPair first second bs) := by
  have after : hasPair first second (c :: bs) = hasPair first second bs := by
    cases bs with
    | nil => rfl
    | cons b bs => simp [hasPair, hfirst]
  induction as with
  | nil => exact after
  | cons a as ih =>
      cases as with
      | nil =>
          rw [List.singleton_append, hasPair, after]
          simp [hasPair, hsecond]
      | cons a' as =>
          rw [List.cons_append, List.cons_append, hasPair, ← List.cons_append, ih, hasPair,
            Bool.or_assoc]

end

/-! ### Marks -/

theorem length_dropMarks_lt {cs : List Char} (h : hasMark cs = true) :
    (dropMarks cs).length < cs.length := by
  cases hopening : hasPair '/' '*' cs with
  | true => exact (length_dropPairs_le _).trans_lt (length_dropPairs_lt hopening)
  -- a text without opening marks is searched for closing ones as it is
  | false =>
      have closing : hasPair '*' '/' cs = true := by simpa [hasMark, hopening] using h
      rw [dropMarks, dropPairs_of_hasPair_eq_false hopening]
      exact length_dropPairs_lt closing

/-- The text is cleared of marks round by round until it has none, and that is what is left. -/
inductive Settles : List Char → List Char → Prop where
  | done {cs : List Char} (unmarked : hasMark cs = false) : Settles cs cs
  | round {cs left : List Char} (marked : hasMark cs = true) (rest : Settles (dropMarks cs) left) :
      Settles cs left

theorem Settles.unmarked {cs left : List Char} (h : Settles cs left) : hasMark left = false := by
  induction h with
  | done unmarked => exact unmarked
  | round _ _ ih => exact ih

/-- **Every text settles**, in no more rounds than it is long. -/
theorem settles_settle {rounds : Nat} {cs : List Char} (h : cs.length ≤ rounds) :
    Settles cs (settle rounds cs) := by
  induction rounds generalizing cs with
  | zero =>
      obtain rfl : cs = [] := List.eq_nil_of_length_eq_zero (Nat.le_zero.mp h)
      exact .done rfl
  | succ rounds ih =>
      by_cases marked : hasMark cs = true
      · rw [settle, if_pos marked]
        exact .round marked (ih (Nat.le_of_lt_succ ((length_dropMarks_lt marked).trans_le h)))
      · rw [settle, if_neg marked]
        exact .done (Bool.eq_false_iff.mpr marked)

/-- What stands somewhere in a text without marks has none. -/
theorem hasMark_of_isInfix {as bs : List Char} (h : as <:+: bs) (hbs : hasMark bs = false) :
    hasMark as = false := by
  obtain ⟨before, after, rfl⟩ := h
  rw [hasMark, Bool.or_eq_false_iff, Bool.eq_false_iff, Bool.eq_false_iff] at hbs ⊢
  exact hbs.imp (fun absent pair => absent (hasPair_append_left (hasPair_append_right pair)))
    fun absent pair => absent (hasPair_append_left (hasPair_append_right pair))

/-- Without the blanks at its beginning a text begins with what is left of it. -/
theorem trim_prefix_dropWhile (cs : List Char) : Text.trim cs <+: cs.dropWhile Text.isBlank := by
  have ends := List.reverse_prefix.mpr
    (List.dropWhile_suffix (l := (cs.dropWhile Text.isBlank).reverse) Text.isBlank)
  rwa [List.reverse_reverse] at ends

theorem trim_isInfix (cs : List Char) : Text.trim cs <:+: cs :=
  (trim_prefix_dropWhile cs).isInfix.trans (List.dropWhile_suffix _).isInfix

/-- **A cleaned text has no marks.** -/
theorem hasMark_clean (text : String) : hasMark (clean text).toList = false := by
  rw [clean, String.toList_ofList]
  exact hasMark_of_isInfix (trim_isInfix _) (settles_settle le_rfl).unmarked

/-- A blank makes no mark with what is on its sides. -/
theorem hasMark_append_blank (as bs : List Char) :
    hasMark (as ++ ' ' :: bs) = (hasMark as || hasMark bs) := by
  rw [hasMark, hasPair_append_cons (by decide) (by decide),
    hasPair_append_cons (by decide) (by decide), hasMark, hasMark, Bool.or_assoc, Bool.or_assoc,
    Bool.or_left_comm (hasPair '/' '*' bs)]

/-- Texts without marks have none when they are joined with blanks between. -/
theorem hasMark_intercalate {texts : List String} (h : ∀ t ∈ texts, hasMark t.toList = false) :
    hasMark (" ".intercalate texts).toList = false := by
  rw [String.toList_intercalate]
  induction texts with
  | nil => rfl
  | cons t texts ih =>
      have first := h t List.mem_cons_self
      have rest := ih fun t' ht' => h t' (List.mem_cons_of_mem t ht')
      cases texts with
      | nil => simpa [List.intercalate] using first
      | cons t' texts =>
          rw [List.map_cons, List.map_cons, List.intercalate_cons_cons, List.append_assoc,
            ← List.map_cons]
          refine (hasMark_append_blank t.toList _).trans ?_
          rw [first, Bool.false_or]
          exact rest

end SqlTree.Comment
