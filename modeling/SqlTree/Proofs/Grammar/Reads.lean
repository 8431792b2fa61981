import SqlTree.Proofs.Grammar.Reader

/-!
# SqlTree — Proofs — what tokens are read as

Tokens are read as a tree of some strength (`Grammar.Reads`) when the machine, wanting an operand,
takes all of them and comes to have the tree, whatever it had before and whatever follows, as long
as that strength is enough on the left and no sign on the right is stronger.  There is one lemma
for each construct of the grammar, from its parts to the whole.
-/

namespace SqlTree.Grammar

variable (G : Grammar)

/-! ### What may follow -/

/-- The pull of the first token. -/
def follow : List Token → Nat
  | [] => 0
  | tok :: _ => G.pull tok

/-- A tree of the strength ends before a token with the pull. -/
def Ends (strength pull : Nat) : Prop :=
  pull < strength ∨ pull = strength ∧ G.chains strength = true

/-- The tokens are read as the tree, as an operand of the strength. -/
def Reads (strength : Nat) (toks : List Token) (t : Tree) : Prop :=
  ∀ frames rest, G.least frames ≤ strength → G.Ends strength (G.follow rest) →
    G.resume (.want frames) (toks ++ rest) = G.resume (.got frames t none) rest

variable {G} {m n : Nat} {frames : List Frame} {t : Tree} {rest : List Token}

theorem Ends.mono {pull : Nat} (h : G.Ends m pull) (hmn : m ≤ n) : G.Ends n pull := by
  obtain hlt | ⟨rfl, chains⟩ := h
  · exact .inl (by omega)
  · obtain hlt | rfl := Nat.lt_or_eq_of_le hmn
    · exact .inl hlt
    · exact .inr ⟨rfl, chains⟩

/-- A strong operand can stand where a weak one is enough. -/
theorem Reads.mono {toks : List Token} (h : G.Reads n toks t) (hmn : m ≤ n) :
    G.Reads m toks t :=
  fun frames rest hleast hends => h frames rest (Nat.le_trans hleast hmn) (hends.mono hmn)

/-! ### Closing what waits -/

/-- Nothing is closed that needs a stronger operand than the token leaves. -/
theorem collapse_of_least {pull : Nat} {spent? : Option Nat} (h : G.least frames ≤ pull) :
    G.collapse pull frames t spent? = (frames, t, spent?) := by
  cases frames with
  | nil => rfl
  | cons frame frames =>
      cases frame with
      | pending p => exact if_neg (Nat.not_lt.mpr h)
      | _ => rfl

/-- A waiting sign is closed before a token that pulls less than its operand binds. -/
theorem resume_pending {p : Pending} {spent? : Option Nat}
    (h : G.follow rest < p.level G) :
    G.resume (.got (.pending p :: frames) t spent?) rest =
      G.resume (.got frames (p.apply t) (G.spent? (G.strength p.sign))) rest := by
  cases rest with
  | nil => simp only [resume, finish, collapse, if_pos (show 0 < p.level G from h)]
  | cons tok toks =>
      simp only [resume, step, collapse, if_pos (show G.pull tok < p.level G from h)]

theorem fits_spent {sign : Sign} {strength : Nat} (h : G.strength sign ≠ strength) :
    G.fits sign frames (some strength) = G.fits sign frames none := by
  simp [fits, Ne.symm h]

/-- Whether a strength is spent matters to signs of that strength only. -/
theorem next_spent {strength : Nat} {tok : Token} (h : G.pull tok ≠ strength) :
    G.next frames t (some strength) tok = G.next frames t none tok := by
  cases tok with
  | word text =>
      simp only [next, fits_spent (show G.strength (.operator (.custom text)) ≠ _ from h)]
  | mark m =>
      cases m with
      | operator op => simp only [next, fits_spent (show G.strength (.operator op) ≠ _ from h)]
      | and => simp only [next, fits_spent (show G.strength .and ≠ _ from h)]
      | isNull _ => simp only [next, fits_spent (show G.strength .isNull ≠ _ from h)]
      | between => simp only [next, fits_spent (show G.strength .between ≠ _ from h)]
      | member _ => simp only [next, fits_spent (show G.strength .member ≠ _ from h)]
      | like _ => simp only [next, fits_spent (show G.strength .like ≠ _ from h)]
      | _ => rfl
  | _ => rfl

/-- Closing what waits forgets what was spent, or nothing waits and all stays as it is. -/
theorem collapse_cases (G : Grammar) (pull : Nat) (frames : List Frame) (t : Tree) :
    (∀ a b, G.collapse pull frames t a = G.collapse pull frames t b) ∨
      ∀ a, G.collapse pull frames t a = (frames, t, a) := by
  cases frames with
  | nil => exact .inr fun _ => rfl
  | cons frame frames =>
      cases frame with
      | pending p =>
          simp only [collapse]
          by_cases h : pull < p.level G
          · exact .inl fun _ _ => by rw [if_pos h, if_pos h]
          · exact .inr fun _ => if_neg h
      | _ => exact .inr fun _ => rfl

/-- A tree whose strength is spent may be followed by what ends it. -/
theorem resume_spent (h : G.Ends n (G.follow rest)) :
    G.resume (.got frames t (G.spent? n)) rest = G.resume (.got frames t none) rest := by
  by_cases chains : G.chains n
  · rw [spent?, if_pos chains]
  have other : G.follow rest ≠ n := by
    obtain hlt | ⟨-, hchains⟩ := h
    · exact Nat.ne_of_lt hlt
    · exact absurd hchains chains
  rw [spent?, if_neg chains]
  -- either something is closed, and the spent strength is forgotten, or no sign asks for it
  cases rest with
  | nil =>
      obtain same | kept := G.collapse_cases 0 frames t
      · simp only [resume, finish, same (some n) none]
      · rw [resume, resume, finish, finish, kept, kept]
        cases frames <;> rfl
  | cons tok toks =>
      obtain same | kept := G.collapse_cases (G.pull tok) frames t
      · simp only [resume, step, same (some n) none]
      · simp only [resume, step, kept, next_spent (show G.pull tok ≠ n from other)]

/-! ### Atoms and parentheses -/

theorem Reads.slot (b : Bind) : G.Reads n [.slot b] (.atom (.slot b)) :=
  fun _ _ _ _ => rfl

theorem Reads.truth (b : Bool) : G.Reads n [.mark (.truth b)] (.atom (.bool b)) :=
  fun _ _ _ _ => rfl

theorem Reads.column (table name : String) :
    G.Reads n [.name table, .mark .dot, .name name] (.atom (.column table name)) :=
  fun _ _ _ _ => rfl

theorem Reads.star (table : String) :
    G.Reads n [.name table, .mark .dot, .mark (.operator .multiplication)]
      (.atom (.column table "*")) :=
  fun _ _ _ _ => rfl

/-- Within an open construct a tree of any strength is read up to a token that does not pull. -/
theorem Reads.item {toks : List Token} (h : G.Reads 1 toks t) {frame : Frame} {tok : Token}
    (opened : G.least (frame :: frames) = 0) (loose : G.pull tok = 0) :
    G.resume (.want (frame :: frames)) (toks ++ tok :: rest) =
      G.resume (.got (frame :: frames) t none) (tok :: rest) :=
  h _ _ (by omega) (.inl (by rw [follow, loose]; exact Nat.one_pos))

/-- Items with commas between, up to the end of the parentheses. -/
theorem resume_items {b : Bracket} {tss : List (List Token)} {ts : List Tree}
    (h : List.Forall₂ (G.Reads 1) tss ts) (nonempty : tss ≠ []) (before : List Tree) :
    G.resume (.want (.items b before :: frames))
        (separated (.mark .comma) tss ++ .closing :: rest) =
      G.resume (.got frames (b.apply (before ++ ts)) (b.spent? G)) rest := by
  -- the items before the next one are in the frame
  induction h generalizing before with
  | nil => exact absurd rfl nonempty
  | @cons toks t tss ts htoks htss ih =>
      cases htss with
      | nil =>
          rw [separated, htoks.item rfl rfl]
          rfl
      | cons hnext hrest =>
          rw [separated_cons_cons, List.append_assoc, List.cons_append, htoks.item rfl rfl]
          have rest_items := ih (by simp) (before ++ [t])
          rw [List.append_assoc] at rest_items
          exact rest_items

/-- A list of items in parentheses. -/
theorem Reads.group {tss : List (List Token)} {ts : List Tree}
    (h : List.Forall₂ (G.Reads 1) tss ts) :
    G.Reads n (.opening :: separated (.mark .comma) tss ++ [.closing]) (.grouped ts) := by
  intro frames rest _ _
  cases h with
  | nil => rfl
  | cons htoks htss =>
      rw [List.append_assoc, List.cons_append]
      exact resume_items (b := .group) (.cons htoks htss) (by simp) []

/-- One tree in parentheses. -/
theorem Reads.parens {toks : List Token} (h : G.Reads 1 toks t) :
    G.Reads n (.opening :: toks ++ [.closing]) t :=
  Reads.group (.cons h .nil)

/-! ### Signs -/

/-- A sign that may follow its operand takes effect. -/
theorem step_sign {sign : Sign} {tok : Token} {st : State} (pull : G.pull tok = G.strength sign)
    (hleast : G.least frames ≤ G.strength sign) (hnext : G.next frames t none tok = some st) :
    G.resume (.got frames t none) (tok :: rest) = G.resume st rest := by
  simp only [resume, step, pull, collapse_of_least hleast, hnext]

theorem fits_none {sign : Sign} (h : G.least frames ≤ G.strength sign) :
    G.fits sign frames none = true := by
  simp [fits, h]

/-- An operand on the left of a sign, and then the sign. -/
theorem Reads.left {sign : Sign} {tok : Token} {st : State} {toks : List Token}
    (h : G.Reads m toks t) (ends : G.Ends m (G.strength sign)) (pull : G.pull tok = G.strength sign)
    (hleast : G.least frames ≤ G.strength sign) (hnext : G.next frames t none tok = some st) :
    G.resume (.want frames) (toks ++ tok :: rest) = G.resume st rest := by
  have enough : G.strength sign ≤ m := by
    obtain h | ⟨h, -⟩ := ends <;> omega
  rw [h _ _ (Nat.le_trans hleast enough) (by rw [follow, pull]; exact ends),
    step_sign pull hleast hnext]

/-- The last operand of a sign, and then the sign with all of them. -/
theorem Reads.right {p : Pending} {toks : List Token} (h : G.Reads (p.level G) toks t)
    (closes : G.follow rest < p.level G) (ends : G.Ends (G.strength p.sign) (G.follow rest)) :
    G.resume (.want (.pending p :: frames)) (toks ++ rest) =
      G.resume (.got frames (p.apply t) none) rest := by
  rw [h _ _ (Nat.le_refl _) (.inl closes), resume_pending closes, resume_spent ends]

theorem Ends.lt_succ {pull : Nat} (h : G.Ends n pull) : pull < n + 1 := by
  obtain h | ⟨h, -⟩ := h <;> omega

theorem Ends.lt {pull : Nat} (h : G.Ends n pull) (unchained : G.chains n = false) : pull < n := by
  obtain h | ⟨-, chains⟩ := h
  · exact h
  · rw [unchained] at chains
    cases chains

theorem Reads.not {toks : List Token} (h : G.Reads (G.strength .not) toks t) :
    G.Reads (G.strength .not) (.mark .not :: toks) (.not t) := by
  intro frames rest hleast ends
  rw [List.cons_append, resume, step, operand, if_pos hleast]
  exact h.right (p := .not) (ends.lt G.chains_not) ends

theorem Reads.leading {text : String} {toks : List Token} (plain : G.isFunction text = false)
    (h : G.Reads (G.strength .leading) toks t) :
    G.Reads (G.strength .leading) (.word text :: toks) (.leading text t) := by
  intro frames rest hleast ends
  rw [List.cons_append, resume, step, operand, plain, if_neg Bool.false_ne_true, if_pos hleast]
  exact h.right (p := .leading text) (ends.lt G.chains_leading) ends

section
variable {left right : List Token} {a b : Tree}

theorem Reads.operator {op : BinaryOperator} {tok : Token}
    (spelled : tok = .mark (.operator op) ∨ ∃ text, tok = .word text ∧ op = .custom text)
    (ha : G.Reads m left a) (ends : G.Ends m (G.strength (.operator op)))
    (hb : G.Reads (G.strength (.operator op) + 1) right b) :
    G.Reads (G.strength (.operator op)) (left ++ tok :: right) (.operator op a b) := by
  intro frames rest hleast hends
  have pull : G.pull tok = G.strength (.operator op) := by
    obtain rfl | ⟨text, rfl, rfl⟩ := spelled <;> rfl
  have waits : G.next frames a none tok = some (.want (.pending (.operator op a) :: frames)) := by
    obtain rfl | ⟨text, rfl, rfl⟩ := spelled <;> exact if_pos (fits_none hleast)
  rw [List.append_assoc, List.cons_append, ha.left ends pull hleast waits]
  exact hb.right (p := .operator op a) hends.lt_succ hends

theorem Reads.isNull (negated : Bool) (ha : G.Reads m left a)
    (ends : G.Ends m (G.strength .isNull)) :
    G.Reads (G.strength .isNull) (left ++ [.mark (.isNull negated)]) (.isNull negated a) := by
  intro frames rest hleast hends
  have taken : G.next frames a none (.mark (.isNull negated)) =
      some (.got frames (.isNull negated a) (G.spent? (G.strength .isNull))) :=
    if_pos (fits_none hleast)
  rw [List.append_assoc, List.singleton_append, ha.left ends rfl hleast taken, resume_spent hends]

theorem Reads.between {low high : List Token} {l h : Tree} (ha : G.Reads m left a)
    (ends : G.Ends m (G.strength .between)) (hl : G.Reads (G.strength .between + 1) low l)
    (hh : G.Reads (G.strength .between + 1) high h) :
    G.Reads (G.strength .between)
      (left ++ .mark .between :: (low ++ .mark .and :: high)) (.between a l h) := by
  intro frames rest hleast hends
  have waits : G.next frames a none (.mark .between) = some (.want (.low a :: frames)) :=
    if_pos (fits_none hleast)
  rw [List.append_assoc, List.cons_append, List.append_assoc, List.cons_append,
    ha.left ends rfl hleast waits]
  -- AND pulls less than the lower bound binds, and finds the frame of BETWEEN
  have bounded : G.Ends (G.strength .between + 1) (G.follow (.mark .and :: (high ++ rest))) :=
    .inl (Nat.lt_succ_of_le G.and_le_between)
  rw [hl _ _ (Nat.le_refl _) bounded]
  exact hh.right (p := .between a l) hends.lt_succ hends

theorem Reads.member (negated : Bool) {tss : List (List Token)} {ts : List Tree}
    (ha : G.Reads m left a) (ends : G.Ends m (G.strength .member))
    (h : List.Forall₂ (G.Reads 1) tss ts) (nonempty : tss ≠ []) :
    G.Reads (G.strength .member)
      (left ++ .mark (.member negated) :: .opening :: separated (.mark .comma) tss ++ [.closing])
      (.member negated a ts) := by
  intro frames rest hleast hends
  have opens : G.next frames a none (.mark (.member negated)) =
      some (.opens (.items (.members negated a) []) frames) := if_pos (fits_none hleast)
  simp only [List.append_assoc, List.cons_append, List.nil_append]
  rw [ha.left ends rfl hleast opens]
  exact (resume_items (b := .members negated a) h nonempty []).trans (resume_spent hends)

theorem Reads.like (negated : Bool) (ha : G.Reads m left a)
    (ends : G.Ends m (G.strength .like)) (hb : G.Reads (G.strength .like + 1) right b) :
    G.Reads (G.strength .like) (left ++ .mark (.like negated) :: right)
      (.like negated a b none) := by
  intro frames rest hleast hends
  have waits : G.next frames a none (.mark (.like negated)) =
      some (.want (.pending (.like negated a) :: frames)) := if_pos (fits_none hleast)
  rw [List.append_assoc, List.cons_append, ha.left ends rfl hleast waits]
  exact hb.right (p := .like negated a) hends.lt_succ hends

theorem Reads.likeEscape (negated : Bool) (escape : String) (ha : G.Reads m left a)
    (ends : G.Ends m (G.strength .like)) (hb : G.Reads (G.strength .like + 1) right b) :
    G.Reads (G.strength .like)
      (left ++ .mark (.like negated) :: (right ++ [.mark .escape, .string escape]))
      (.like negated a b (some escape)) := by
  intro frames rest hleast hends
  have waits : G.next frames a none (.mark (.like negated)) =
      some (.want (.pending (.like negated a) :: frames)) := if_pos (fits_none hleast)
  simp only [List.append_assoc, List.cons_append, List.nil_append]
  rw [ha.left ends rfl hleast waits, hb _ _ (Nat.le_refl _) (.inr ⟨rfl, G.chains_pattern⟩)]
  -- the frame of LIKE is not closed: the escape character is still to come
  have kept : G.collapse (G.strength .like + 1) (.pending (.like negated a) :: frames) b none =
      (.pending (.like negated a) :: frames, b, none) := collapse_of_least (Nat.le_refl _)
  simp only [resume, step, pull, kept, next]
  exact resume_spent hends

end

/-! ### Calls and cases -/

/-- The arguments of a call, which may be none. -/
theorem resume_arguments {name : String} {distinct : Bool} {tss : List (List Token)}
    {ts : List Tree} (h : List.Forall₂ (G.Reads 1) tss ts) :
    G.resume (.want (.items (.call name distinct) [] :: frames))
        (separated (.mark .comma) tss ++ .closing :: rest) =
      G.resume (.got frames (.call name distinct ts) none) rest := by
  cases h with
  | nil => rfl
  | cons htoks htss => exact resume_items (b := .call name distinct) (.cons htoks htss) (by simp) []

theorem Reads.call {name : String} (known : G.isFunction name = true) (distinct : Bool)
    {tss : List (List Token)} {ts : List Tree} (h : List.Forall₂ (G.Reads 1) tss ts) :
    G.Reads n (.word name :: .opening :: ((if distinct then [.mark .distinct] else []) ++
      separated (.mark .comma) tss ++ [.closing])) (.call name distinct ts) := by
  intro frames rest _ _
  simp only [List.append_assoc, List.cons_append, List.nil_append]
  rw [resume, step, operand, if_pos known]
  cases distinct with
  | false | true => exact resume_arguments h

theorem Reads.cast {toks : List Token} (typeName : String) (h : G.Reads 1 toks t) :
    G.Reads n (.mark .cast :: .opening :: (toks ++ [.mark .naming, .word typeName, .closing]))
      (.cast t typeName) := by
  intro frames rest _ _
  simp only [List.append_assoc, List.cons_append, List.nil_append]
  show G.resume (.want (.cast :: frames)) (toks ++ _ :: _) = _
  rw [h.item rfl rfl]
  rfl

/-- The tokens of an arm of CASE. -/
def armTokens (arm : List Token × List Token) : List Token :=
  .mark .condition :: (arm.1 ++ .mark .result :: arm.2)

/-- An arm is read as its condition and its result. -/
def ReadsArm (G : Grammar) (toks : List Token × List Token) (arm : Tree × Tree) : Prop :=
  G.Reads 1 toks.1 arm.1 ∧ G.Reads 1 toks.2 arm.2

/-- The arms of CASE from within the first one on. -/
theorem resume_arms (subject? : Option Tree) {tok : Token} (loose : G.pull tok = 0)
    {arm : List Token × List Token} {arms : List (List Token × List Token)}
    {ts : List (Tree × Tree)} (h : List.Forall₂ G.ReadsArm (arm :: arms) ts)
    (before : List (Tree × Tree)) :
    ∃ done condition result, before ++ ts = done ++ [(condition, result)] ∧
      G.resume (.want (.condition subject? before :: frames))
          (arm.1 ++ .mark .result :: (arm.2 ++ (arms.flatMap armTokens ++ tok :: rest))) =
        G.resume (.got (.result subject? done condition :: frames) result none) (tok :: rest) := by
  -- the frame holds the arms that are complete, and then the condition of the one that is not
  induction arms generalizing arm ts before with
  | nil =>
      obtain _ | @⟨_, ⟨c, r⟩, _, _, ⟨hc, hr⟩, _ | _⟩ := h
      refine ⟨before, c, r, rfl, ?_⟩
      rw [hc.item rfl rfl]
      exact hr.item rfl loose
  | cons arm' arms ih =>
      obtain _ | @⟨_, ⟨c, r⟩, _, _, ⟨hc, hr⟩, harms⟩ := h
      obtain ⟨done, c', r', hdone, hresume⟩ := ih harms (before ++ [(c, r)])
      refine ⟨done, c', r', by simpa using hdone, ?_⟩
      rw [hc.item rfl rfl, ← hresume]
      show G.resume (.want (.result subject? before c :: frames)) _ = _
      rw [List.flatMap_cons, armTokens, List.cons_append, List.cons_append, hr.item rfl rfl]
      simp only [List.append_assoc, List.cons_append]
      rfl

section
variable {arms : List (List Token × List Token)} {ts : List (Tree × Tree)}
  (harms : List.Forall₂ G.ReadsArm arms ts) (nonempty : arms ≠ [])
include harms nonempty

/-- The arms of CASE and its end, with or without a default. -/
theorem resume_cases (subject? : Option Tree) {default? : Option (List Token)} {d? : Option Tree}
    (hdefault : Option.Rel (G.Reads 1) default? d?) :
    G.resume (.want (.condition subject? [] :: frames))
        ((arms.flatMap armTokens).tail ++
          ((default?.map (.mark .default :: ·)).getD [] ++ .mark .finish :: rest)) =
      G.resume (.got frames (.cases subject? ts d?) none) rest := by
  obtain _ | ⟨arm, arms⟩ := arms
  · exact absurd rfl nonempty
  simp only [List.flatMap_cons, armTokens, List.cons_append, List.tail_cons, List.append_assoc]
  cases hdefault with
  | none =>
      obtain ⟨done, c, r, hdone, hresume⟩ :=
        resume_arms subject? (show G.pull (.mark .finish) = 0 from rfl) harms []
      obtain rfl : ts = done ++ [(c, r)] := hdone
      exact hresume
  | @some toks d hd =>
      obtain ⟨done, c, r, hdone, hresume⟩ :=
        resume_arms subject? (show G.pull (.mark .default) = 0 from rfl) harms []
      obtain rfl : ts = done ++ [(c, r)] := hdone
      refine hresume.trans ?_
      show G.resume (.want (.default subject? _ :: frames)) (toks ++ _ :: rest) = _
      rw [hd.item rfl rfl]
      rfl

theorem Reads.cases {subject? default? : Option (List Token)} {s? d? : Option Tree}
    (hsubject : Option.Rel (G.Reads 1) subject? s?)
    (hdefault : Option.Rel (G.Reads 1) default? d?) :
    G.Reads n (.mark .case :: (subject?.getD [] ++ arms.flatMap armTokens ++
      (default?.map (.mark .default :: ·)).getD [] ++ [.mark .finish])) (.cases s? ts d?) := by
  intro frames rest _ _
  have begun : arms.flatMap armTokens =
      .mark .condition :: (arms.flatMap armTokens).tail := by
    obtain _ | ⟨arm, arms⟩ := arms
    · exact absurd rfl nonempty
    · rfl
  simp only [List.append_assoc, List.cons_append, List.nil_append]
  show G.resume (.want (.subject :: frames)) _ = _
  cases hsubject with
  | none =>
      rw [begun]
      exact resume_cases harms nonempty none hdefault
  | @some toks s hs =>
      rw [begun, Option.getD_some, List.cons_append, hs.item rfl rfl]
      exact resume_cases harms nonempty (some s) hdefault

end

/-! ### Conjunctions -/

variable (G) in
/-- After AND the tokens join what has been read before it. -/
def Joins (toks : List Token) (t : Tree) : Prop :=
  ∀ frames before rest, G.least frames ≤ G.strength .and →
    G.Ends (G.strength .and) (G.follow rest) →
      G.resume (.got frames before none) (.mark .and :: (toks ++ rest)) =
        G.resume (.got frames (before.conjoin t) none) rest

theorem next_and (h : G.least frames ≤ G.strength .and) :
    G.next frames t none (.mark .and) = some (.want (.pending (.and t) :: frames)) := by
  cases frames with
  | nil => simp only [next, fits_none h, if_true]
  | cons frame frames =>
      cases frame with
      -- a lower bound binds tighter than AND: the frame of BETWEEN is excluded
      | low x =>
          have strong : G.strength .between + 1 ≤ G.strength .and := h
          have := G.and_le_between
          omega
      | _ => simp only [next, fits_none h, if_true]

/-- What is stronger than AND joins a conjunction as one item. -/
theorem Reads.joins {toks : List Token} (h : G.Reads (G.strength .and + 1) toks t) :
    G.Joins toks t := by
  intro frames before rest hleast ends
  rw [step_sign rfl hleast (next_and hleast)]
  exact h.right (p := .and before) ends.lt_succ ends

/-- More items of a conjunction, or what ends it, end each of its items. -/
theorem ends_items {tss : List (List Token)} (ends : G.Ends (G.strength .and) (G.follow rest)) :
    G.Ends (G.strength .and) (G.follow (tss.flatMap (.mark .and :: ·) ++ rest)) := by
  cases tss with
  | nil => exact ends
  | cons _ _ => exact .inr ⟨rfl, G.chains_and⟩

/-- Items that each join what has been read join it one after the other. -/
theorem Joins.all {tss : List (List Token)} {ts : List Tree}
    (h : List.Forall₂ G.Joins tss ts) (before : Tree) (hleast : G.least frames ≤ G.strength .and)
    (ends : G.Ends (G.strength .and) (G.follow rest)) :
    G.resume (.got frames before none) (tss.flatMap (.mark .and :: ·) ++ rest) =
      G.resume (.got frames (ts.foldl Tree.conjoin before) none) rest := by
  induction h generalizing before with
  | nil => rfl
  | @cons toks t tss ts htoks _ ih =>
      rw [List.flatMap_cons, List.cons_append, List.cons_append, List.append_assoc,
        htoks _ _ _ hleast (ends_items ends), ih]
      rfl

section
variable {toks : List Token} {tss : List (List Token)} {ts : List Tree}

theorem Reads.conjunction (h : G.Reads (G.strength .and) toks t)
    (hs : List.Forall₂ G.Joins tss ts) :
    G.Reads (G.strength .and) (separated (.mark .and) (toks :: tss)) (.conjunction (t :: ts)) := by
  intro frames rest hleast ends
  rw [separated_cons, List.append_assoc, h _ _ hleast (ends_items ends), Joins.all hs t hleast ends,
    Tree.conjunction_cons]

theorem foldl_conjoin (before t : Tree) (ts : List Tree) :
    ts.foldl Tree.conjoin (before.conjoin t) = before.conjoin (ts.foldl Tree.conjoin t) := by
  induction ts generalizing t with
  | nil => rfl
  | cons u ts ih => rw [List.foldl_cons, List.foldl_cons, Tree.conjoin_assoc, ih]

/-- A conjunction joins another with all its items. -/
theorem Joins.conjunction (h : G.Joins toks t) (hs : List.Forall₂ G.Joins tss ts) :
    G.Joins (separated (.mark .and) (toks :: tss)) (.conjunction (t :: ts)) := by
  intro frames before rest hleast ends
  rw [separated_cons, List.append_assoc, h _ _ _ hleast (ends_items ends),
    Joins.all hs _ hleast ends, Tree.conjunction_cons, foldl_conjoin]

end

/-! ### All tokens -/

/-- Tokens that are read as a tree of some strength are read as this tree by themselves. -/
theorem Reads.read {toks : List Token} (h : G.Reads 1 toks t) : G.read toks = some t := by
  have ended := h [] [] (Nat.zero_le 1) (.inl Nat.one_pos)
  rw [List.append_nil] at ended
  exact ended

end SqlTree.Grammar
