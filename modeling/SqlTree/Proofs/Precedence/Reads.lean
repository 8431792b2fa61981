import SqlTree.Proofs.Precedence.Reader

/-!
# SqlTree — Proofs — what tokens are read as by a table

Tokens are read as a phrase between two ranks (`Precedence.Reads`) when the machine, wanting an
operand, takes all of them and comes to have the phrase, whatever follows: as long as what waits is
looser than the left rank, and what follows pulls no more than the right rank bears.  There is one
lemma for each way to put an operator to its operands.
-/

namespace SqlTree.Precedence

variable (P : Precedence)

/-- The pull of the first token. -/
def follow : List Token → Nat
  | [] => 0
  | tok :: _ => P.pull tok

/-- The tokens are read as the phrase, behind what is looser than `l` and before what `r` bears. -/
def Reads (l r : Nat) (toks : List Token) (p : Phrase) : Prop :=
  ∀ frames rest, waiting frames < l → P.Ends r (P.follow rest) →
    P.resume (.want frames) (toks ++ rest) = P.resume (.got frames p) rest

variable {P} {k l m n r pull : Nat} {frames : List Frame} {p q : Phrase} {toks rest : List Token}

theorem Ends.mono (h : P.Ends m pull) (hmn : m ≤ n) : P.Ends n pull := by
  obtain hlt | ⟨rfl, chains⟩ := h
  · exact .inl (by omega)
  · obtain hlt | rfl := Nat.lt_or_eq_of_le hmn
    · exact .inl hlt
    · exact .inr ⟨rfl, chains⟩

theorem Ends.le (h : P.Ends m pull) : pull ≤ m := by
  obtain hlt | ⟨heq, -⟩ := h
  · exact Nat.le_of_lt hlt
  · exact Nat.le_of_eq heq

theorem Reads.mono (h : P.Reads l r toks p) (hl : m ≤ l) (hr : n ≤ r) : P.Reads m n toks p :=
  fun frames rest hwait hends => h frames rest (Nat.lt_of_lt_of_le hwait hl) (hends.mono hr)

/-! ### Closing what waits -/

theorem collapse_of_waiting (h : waiting frames < pull) :
    P.collapse pull frames p = (frames, p) := by
  cases frames with
  | nil => rfl
  | cons frame frames =>
      cases frame with
      | parens => rfl
      | pending sign rank left? =>
          have kept : ¬P.Ends rank pull := fun hends => Nat.not_le.mpr h hends.le
          rw [collapse, if_neg kept]

/-- An operator that waits is closed before what does not pull its operand away. -/
theorem resume_pending {sign : String} {left? : Option Phrase} (h : P.Ends n (P.follow rest)) :
    P.resume (.got (.pending sign n left? :: frames) p) rest =
      P.resume (.got frames (close sign left? p)) rest := by
  cases rest with
  | nil => simp only [resume, finish, collapse, if_pos (show P.Ends n 0 from h)]
  | cons tok toks =>
      simp only [resume, step, collapse, if_pos (show P.Ends n (P.pull tok) from h)]

/-! ### Operands without operators -/

theorem Reads.name (text : String) : P.Reads l r [.name text] (.name text) := fun _ _ _ _ => rfl

theorem Reads.string (text : String) : P.Reads l r [.string text] (.string text) :=
  fun _ _ _ _ => rfl

theorem Reads.slot (b : Bind) : P.Reads l r [.slot b] (.slot b) := fun _ _ _ _ => rfl

theorem Reads.star : P.Reads l r [.word "*"] .star := fun _ _ _ _ => rfl

theorem Reads.parens (h : P.Reads 1 1 toks p) : P.Reads l r (.opening :: toks ++ [.closing]) p := by
  intro frames rest _ _
  have inner := h (.parens :: frames) (.closing :: rest) Nat.one_pos (.inl Nat.one_pos)
  rw [List.append_assoc, List.cons_append]
  exact inner

/-! ### Operators -/

theorem pull_of_between {sign : String} (h : P.between? sign = some n) :
    P.pull (.word sign) = n := by
  rw [pull, h]
  rfl

theorem pull_of_behind {sign : String} (h : P.between? sign = none) (h' : P.behind? sign = some n) :
    P.pull (.word sign) = n := by
  rw [pull, h, h']
  rfl

theorem next_between {sign : String} (known : P.between? sign = some n) (h : waiting frames < n) :
    P.next frames p (.word sign) = some (.want (.pending sign n (some p) :: frames)) := by
  rw [next, pull_of_between known, if_neg (Nat.ne_of_lt h), known]

theorem next_behind {sign : String} (unknown : P.between? sign = none)
    (known : P.behind? sign = some n) (h : waiting frames < n) :
    P.next frames p (.word sign) = some (.got frames (.behind sign p)) := by
  rw [next, pull_of_behind unknown known, if_neg (Nat.ne_of_lt h), unknown, known]
  rfl

/-- An operator takes its place behind an operand if it is tighter than what waits. -/
theorem resume_sign {sign : String} {st : State} (pull : P.pull (.word sign) = n)
    (h : waiting frames < n) (hnext : P.next frames p (.word sign) = some st) :
    P.resume (.got frames p) (.word sign :: rest) = P.resume st rest := by
  simp only [resume, step, pull, collapse_of_waiting h, hnext]

/-- An operator before its operand may stand behind anything. -/
theorem Reads.before {sign : String} (known : P.before? sign = some n) (proper : sign ≠ "*")
    (h : P.Reads k r toks p) (fits : n < k) :
    P.Reads l (min n r) (.word sign :: toks) (.before sign p) := by
  intro frames rest _ hends
  have opened : P.operand frames (.word sign) = some (.want (.pending sign n none :: frames)) := by
    rw [operand, if_neg proper, known]
    rfl
  rw [List.cons_append, resume, step, opened]
  simp only
  rw [h (.pending sign n none :: frames) rest fits (hends.mono (Nat.min_le_right n r)),
    resume_pending (hends.mono (Nat.min_le_left n r))]
  rfl

section
variable {sign : String} {left right : List Token}

/-- An operator and its second operand join what has been read before them. -/
theorem resume_between (known : P.between? sign = some n) (h : P.Reads k r right q) (fits : n < k)
    (hwait : waiting frames < n) (hends : P.Ends (min n r) (P.follow rest)) :
    P.resume (.got frames p) (.word sign :: (right ++ rest)) =
      P.resume (.got frames (p.join sign q)) rest := by
  rw [resume_sign (pull_of_between known) hwait (next_between known hwait),
    h (.pending sign n (some p) :: frames) rest fits (hends.mono (Nat.min_le_right n r)),
    resume_pending (hends.mono (Nat.min_le_left n r))]
  rfl

theorem Reads.between (known : P.between? sign = some n) (hleft : P.Reads l m left p)
    (ends : P.Ends m n) (hright : P.Reads k r right q) (fits : n < k) :
    P.Reads (min l n) (min n r) (left ++ .word sign :: right) (p.join sign q) := by
  intro frames rest hwait hends
  have behind : P.Ends m (P.follow (.word sign :: (right ++ rest))) := by
    rw [follow, pull_of_between known]
    exact ends
  rw [List.append_assoc, List.cons_append,
    hleft _ _ (Nat.lt_of_lt_of_le hwait (Nat.min_le_left l n)) behind]
  exact resume_between known hright fits (Nat.lt_of_lt_of_le hwait (Nat.min_le_right l n)) hends

theorem Reads.behind (unknown : P.between? sign = none) (known : P.behind? sign = some n)
    (h : P.Reads l m left p) (ends : P.Ends m n) :
    P.Reads (min l n) r (left ++ [.word sign]) (.behind sign p) := by
  intro frames rest hwait _
  have follows : P.Ends m (P.follow (.word sign :: rest)) := by
    rw [follow, pull_of_behind unknown known]
    exact ends
  rw [List.append_assoc, List.singleton_append,
    h _ _ (Nat.lt_of_lt_of_le hwait (Nat.min_le_left l n)) follows]
  have outside : waiting frames < n := Nat.lt_of_lt_of_le hwait (Nat.min_le_right l n)
  exact resume_sign (pull_of_behind unknown known) outside (next_behind unknown known outside)

end

/-! ### Conjunctions -/

variable (P) in
/-- After AND the tokens join what has been read before it. -/
def Joins (toks : List Token) (p : Phrase) : Prop :=
  ∀ frames before rest n, P.between? "AND" = some n → waiting frames < n →
    P.Ends n (P.follow rest) →
      P.resume (.got frames before) (.word "AND" :: (toks ++ rest)) =
        P.resume (.got frames (before.conjoin p)) rest

/-- What is tighter than AND joins a conjunction as one item. -/
theorem Reads.joins (h : P.Reads k r toks p)
    (tight : ∀ n, P.between? "AND" = some n → n < k ∧ n ≤ r) : P.Joins toks p := by
  intro frames before rest n known hwait hends
  obtain ⟨fits, bears⟩ := tight n known
  refine resume_between known h fits hwait ?_
  rwa [Nat.min_eq_left bears]

section
variable {left right : List Token}

/-- A conjunction is read from its first item on. -/
theorem Reads.conjoin (known : P.between? "AND" = some n) (hleft : P.Reads l m left p)
    (ends : P.Ends m n) (hright : P.Joins right q) :
    P.Reads (min l n) n (left ++ .word "AND" :: right) (p.conjoin q) := by
  intro frames rest hwait hends
  have behind : P.Ends m (P.follow (.word "AND" :: (right ++ rest))) := by
    rw [follow, pull_of_between known]
    exact ends
  rw [List.append_assoc, List.cons_append,
    hleft _ _ (Nat.lt_of_lt_of_le hwait (Nat.min_le_left l n)) behind]
  exact hright _ _ _ n known (Nat.lt_of_lt_of_le hwait (Nat.min_le_right l n)) hends

/-- A conjunction joins another with all its items. -/
theorem Joins.conjoin (hleft : P.Joins left p) (hright : P.Joins right q)
    (chains : ∀ n, P.between? "AND" = some n → P.chains n = true) :
    P.Joins (left ++ .word "AND" :: right) (p.conjoin q) := by
  intro frames before rest n known hwait hends
  have follows : P.Ends n (P.follow (.word "AND" :: (right ++ rest))) := by
    rw [follow, pull_of_between known]
    exact .inr ⟨rfl, chains n known⟩
  rw [List.append_assoc, List.cons_append, hleft _ _ _ n known hwait follows,
    hright _ _ _ n known hwait hends, Phrase.conjoin_assoc]

end

/-! ### All tokens -/

/-- Tokens that are read as a phrase behind and before nothing are read as this phrase. -/
theorem Reads.read (h : P.Reads l r toks p) (hl : 0 < l) (hr : 0 < r) : P.read toks = some p := by
  have ended := h [] [] hl (.inl hr)
  rw [List.append_nil] at ended
  exact ended

end SqlTree.Precedence
