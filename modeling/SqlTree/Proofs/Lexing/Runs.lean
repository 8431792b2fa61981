import Mathlib.Data.List.Basic
import Mathlib.Data.List.TakeWhile

/-!
# SqlTree — Proofs — runs of characters

A text falls into runs of characters of some kind, and the gaps between them.

* `Text.mem_runs_iff`: the runs that are found one after the other (`Text.runs`) are all the pieces
  of such characters that could not be longer (`Text.IsRun`).
-/

namespace SqlTree.Text

/-- The runs of characters that pass, in order.  A run begins where the text does or behind a
character that does not pass, and it goes on as long as it can. -/
def runs (p : Char → Bool) : List Char → List (List Char)
  | [] => []
  | c :: cs => if p c then (c :: cs.takeWhile p) :: runs p (cs.dropWhile p) else runs p cs
termination_by cs => cs.length
decreasing_by
  · exact Nat.lt_succ_of_le (List.dropWhile_sublist p).length_le
  · exact Nat.lt_succ_self cs.length

/-- A piece of a text: characters that pass, with none before it or behind it to make it longer. -/
structure IsRun (p : Char → Bool) (cs run : List Char) : Prop where
  nonempty : run ≠ []
  passes : ∀ c ∈ run, p c = true
  maximal : ∃ before after, cs = before ++ (run ++ after) ∧
    (∀ c ∈ before.getLast?, p c = false) ∧ ∀ c ∈ after.head?, p c = false

section
variable {p : Char → Bool}

/-- Where a run stops, the next character does not pass. -/
theorem head?_dropWhile (cs : List Char) : ∀ c ∈ (cs.dropWhile p).head?, p c = false := by
  intro c hc
  have first := List.head?_dropWhile_not p cs
  rwa [hc] at first

/-- Nothing is taken where the first character does not pass. -/
theorem takeWhile_dropWhile_of_head? {cs : List Char} (h : ∀ c ∈ cs.head?, p c = false) :
    cs.takeWhile p = [] ∧ cs.dropWhile p = cs := by
  cases cs with
  | nil => exact ⟨rfl, rfl⟩
  | cons c cs =>
      have outside : ¬p c = true := Bool.eq_false_iff.mp (h c rfl)
      exact ⟨List.takeWhile_cons_of_neg outside, List.dropWhile_cons_of_neg outside⟩

/-- A text that begins with a run: the run, and what it leaves. -/
theorem cons_eq_run_append (c : Char) (cs : List Char) :
    c :: cs = (c :: cs.takeWhile p) ++ cs.dropWhile p :=
  congrArg (c :: ·) List.takeWhile_append_dropWhile.symm

theorem passes_of_mem_run {c : Char} (h : p c = true) (cs : List Char) :
    ∀ x ∈ c :: cs.takeWhile p, p x = true :=
  List.forall_mem_cons.mpr ⟨h, fun _ => List.mem_takeWhile_imp⟩

/-- A run in the later part of a text is one of the whole, if there is a gap between the parts. -/
theorem IsRun.behind {cs run : List Char} (h : IsRun p cs run) {front : List Char}
    (gap : (∀ c ∈ front.getLast?, p c = false) ∨ ∀ c ∈ cs.head?, p c = false) :
    IsRun p (front ++ cs) run := by
  obtain ⟨nonempty, passes, before, after, rfl, begins, ends⟩ := h
  refine ⟨nonempty, passes, front ++ before, after, (List.append_assoc ..).symm, ?_, ends⟩
  cases before with
  | cons b before =>
      rw [List.getLast?_append, List.getLast?_cons, Option.some_or, ← List.getLast?_cons]
      exact begins
  | nil =>
      rw [List.append_nil]
      rcases gap with gap | gap
      · exact gap
      · -- the later part begins with the run
        obtain ⟨c, rest, rfl⟩ := List.exists_cons_of_ne_nil nonempty
        exact absurd (passes c List.mem_cons_self) (Bool.eq_false_iff.mp (gap c rfl))

/-- A run is over where the next character does not pass. -/
theorem runs_run_append {run after : List Char} (nonempty : run ≠ [])
    (passes : ∀ c ∈ run, p c = true) (ends : ∀ c ∈ after.head?, p c = false) :
    runs p (run ++ after) = run :: runs p after := by
  obtain ⟨c, cs, rfl⟩ := List.exists_cons_of_ne_nil nonempty
  obtain ⟨word, rest⟩ := List.forall_mem_cons.mp passes
  have none_taken := takeWhile_dropWhile_of_head? ends
  rw [List.cons_append, runs, if_pos word, List.takeWhile_append_of_pos rest,
    List.dropWhile_append_of_pos rest, none_taken.1, none_taken.2, List.append_nil]

/-- No run goes on behind a character that does not pass. -/
theorem takeWhile_dropWhile_gap {gap : Char} (outside : ¬p gap = true) (cs after : List Char) :
    (cs ++ gap :: after).takeWhile p = cs.takeWhile p ∧
      (cs ++ gap :: after).dropWhile p = cs.dropWhile p ++ gap :: after := by
  induction cs with
  | nil => exact ⟨List.takeWhile_cons_of_neg outside, List.dropWhile_cons_of_neg outside⟩
  | cons c cs ih => by_cases word : p c = true <;> simp [word, ih.1, ih.2]

/-- The runs before a character that does not pass, and those behind it. -/
theorem runs_append_gap {gap : Char} (outside : ¬p gap = true) (cs after : List Char) :
    runs p (cs ++ gap :: after) = runs p cs ++ runs p after := by
  fun_induction runs p cs with
  | case1 => rw [List.nil_append, runs, if_neg outside, List.nil_append]
  | case2 c cs word ih =>
      have cut := takeWhile_dropWhile_gap outside cs after
      rw [List.cons_append, runs, if_pos word, cut.1, cut.2, ih, List.cons_append]
  | case3 c cs skipped ih => rw [List.cons_append, runs, if_neg skipped, ih]

/-- **The runs are the pieces that cannot be longer.** -/
theorem mem_runs_iff {cs run : List Char} : run ∈ runs p cs ↔ IsRun p cs run := by
  constructor
  · intro h
    fun_induction runs p cs with
    | case1 => cases h
    | case2 c cs word ih =>
        rw [cons_eq_run_append (p := p)]
        rcases List.mem_cons.mp h with rfl | later
        · exact ⟨List.cons_ne_nil _ _, passes_of_mem_run word cs, [], _, rfl, by simp,
            head?_dropWhile cs⟩
        · exact (ih later).behind (.inr (head?_dropWhile cs))
    | case3 c cs gap ih =>
        -- the character before the rest of the text is the gap
        have outside : ∀ x ∈ [c].getLast?, p x = false := by simpa using gap
        exact (ih h).behind (.inl outside)
  · rintro ⟨nonempty, passes, before, after, rfl, begins, ends⟩
    have here : run ∈ runs p (run ++ after) :=
      runs_run_append nonempty passes ends ▸ List.mem_cons_self
    rcases List.eq_nil_or_concat' before with rfl | ⟨before, gap, rfl⟩
    · exact here
    · have outside : ¬p gap = true := Bool.eq_false_iff.mp (begins gap List.getLast?_concat)
      rw [List.append_assoc, List.singleton_append, runs_append_gap outside]
      exact List.mem_append_right _ here

end
end SqlTree.Text
