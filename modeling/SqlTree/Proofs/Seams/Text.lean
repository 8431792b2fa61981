import Mathlib.Data.List.TakeWhile
import SqlTree.Proofs.Lexing.Value

/-!
# SqlTree — Proofs — where texts meet

Two texts that stand side by side are read as one if an operator begins the second where one ended
the first: two dashes in a row begin a comment.  A text is soft (`isSoft`) if it may stand behind
anything and before anything.

* `isSoft_operatorText` and its like: the words and signs of every dialect are soft.
* `isDashless_quoteValue`: outside of its quotes a literal has no two dashes in a row, and it does
  not end in one.
-/

namespace SqlTree

/-! ### Signs -/

/-- The characters that operators are made of. -/
def operatorChars : List Char :=
  ['+', '-', '*', '/', '<', '>', '=', '~', '!', '@', '#', '%', '^', '&', '|', '?']

def isSign (c : Char) : Bool := operatorChars.contains c

/-- The text begins with a character of an operator. -/
def beginsSign (cs : List Char) : Bool := cs.head?.any isSign

/-- No character of an operator anywhere. -/
def Signless (cs : List Char) : Prop := ∀ c ∈ cs, isSign c = false

@[simp] theorem signless_nil : Signless [] := by simp [Signless]

@[simp] theorem signless_cons {c : Char} {cs : List Char} :
    Signless (c :: cs) ↔ isSign c = false ∧ Signless cs := List.forall_mem_cons

@[simp] theorem signless_append {as bs : List Char} :
    Signless (as ++ bs) ↔ Signless as ∧ Signless bs := List.forall_mem_append

theorem Signless.of_subset {as bs : List Char} (h : Signless bs) (sub : as ⊆ bs) : Signless as :=
  fun c hc => h c (sub hc)

theorem Signless.dash_not_mem {cs : List Char} (h : Signless cs) : '-' ∉ cs := by
  intro mem
  cases h '-' mem

theorem beginsSign_append {as : List Char} (h : as ≠ []) (bs : List Char) :
    beginsSign (as ++ bs) = beginsSign as := by
  obtain ⟨a, as, rfl⟩ := List.exists_cons_of_ne_nil h
  rfl

/-! ### Dashes -/

/-- Two dashes follow each other: what comes after them is a comment. -/
def hasDashes (cs : List Char) : Bool := Comment.hasPair '-' '-' cs

/-- No two dashes follow each other, and none would if another came behind. -/
def isDashless (cs : List Char) : Bool := !hasDashes cs && cs.getLast? != some '-'

theorem hasDashes_cons (c : Char) (cs : List Char) :
    hasDashes (c :: cs) = (decide (c = '-' ∧ cs.head? = some '-') || hasDashes cs) := by
  cases cs with
  | nil => simp [hasDashes, Comment.hasPair]
  | cons next cs => simp [hasDashes, Comment.hasPair]

/-- Texts without two dashes in a row have none together, unless one ends in a dash and the other
begins with one. -/
theorem hasDashes_append {as bs : List Char} (ha : hasDashes as = false)
    (hb : hasDashes bs = false) (apart : as.getLast? = some '-' → bs.head? ≠ some '-') :
    hasDashes (as ++ bs) = false := by
  induction as with
  | nil => exact hb
  | cons a as ih =>
      rw [hasDashes_cons, Bool.or_eq_false_iff] at ha
      obtain ⟨single, ha⟩ := ha
      rw [List.cons_append, hasDashes_cons, Bool.or_eq_false_iff]
      cases as with
      | nil =>
          refine ⟨?_, hb⟩
          rw [decide_eq_false_iff_not]
          rintro ⟨rfl, begins⟩
          exact apart rfl begins
      | cons next as => exact ⟨single, ih ha apart⟩

theorem head?_ne_dash {cs : List Char} (h : beginsSign cs = false) : cs.head? ≠ some '-' := by
  intro begins
  rw [beginsSign, begins] at h
  cases h

theorem isDashless_iff {cs : List Char} :
    isDashless cs = true ↔ hasDashes cs = false ∧ cs.getLast? ≠ some '-' := by
  simp [isDashless]

theorem isDashless_append {as bs : List Char} (ha : isDashless as = true)
    (hb : isDashless bs = true) : isDashless (as ++ bs) = true := by
  rw [isDashless_iff] at ha hb ⊢
  refine ⟨hasDashes_append ha.1 hb.1 fun last => absurd last ha.2, ?_⟩
  rw [List.getLast?_append]
  cases hlast : bs.getLast? with
  | none => exact ha.2
  | some c =>
      rw [hlast] at hb
      exact hb.2

theorem isDashless_of_not_mem {cs : List Char} (h : '-' ∉ cs) : isDashless cs = true := by
  rw [isDashless_iff]
  constructor
  · induction cs with
    | nil => rfl
    | cons c cs ih =>
        rw [List.mem_cons, not_or] at h
        rw [hasDashes_cons, ih h.2, Bool.or_false, decide_eq_false_iff_not]
        rintro ⟨rfl, -⟩
        exact h.1 rfl
  · intro last
    exact h (List.mem_of_getLast? last)

theorem isDashless_toList_append {s t : String} (hs : isDashless s.toList = true)
    (ht : isDashless t.toList = true) : isDashless (s ++ t).toList = true := by
  rw [String.toList_append]
  exact isDashless_append hs ht

theorem isDashless_ofList {cs : List Char} (h : isDashless cs = true) :
    isDashless (String.ofList cs).toList = true := by
  rwa [String.toList_ofList]

/-! ### Soft texts -/

/-- The text may stand behind an operator and before one. -/
def isSoft (cs : List Char) : Bool := !cs.isEmpty && !beginsSign cs && isDashless cs

theorem isSoft_iff {cs : List Char} :
    isSoft cs = true ↔ cs ≠ [] ∧ beginsSign cs = false ∧ isDashless cs = true := by
  simp [isSoft, and_assoc]

theorem isSoft_of_signless {cs : List Char} (h : Signless cs) (some_char : cs ≠ []) :
    isSoft cs = true := by
  obtain ⟨c, cs, rfl⟩ := List.exists_cons_of_ne_nil some_char
  rw [isSoft_iff]
  exact ⟨some_char, (signless_cons.mp h).1, isDashless_of_not_mem h.dash_not_mem⟩

/-- A single dash may stand before a soft text. -/
theorem isDashless_cons {cs : List Char} (h : isSoft cs = true) :
    isDashless ('-' :: cs) = true := by
  rw [isSoft_iff] at h
  obtain ⟨some_char, begins, dashless⟩ := h
  rw [isDashless_iff] at dashless ⊢
  constructor
  · rw [hasDashes_cons, dashless.1, Bool.or_false, decide_eq_false_iff_not]
    exact fun both => head?_ne_dash begins both.2
  · rw [List.getLast?_cons_of_ne_nil some_char]
    exact dashless.2

/-- For the texts that are spelled out: their characters are checked one by one. -/
theorem isSoft_ofList {cs : List Char} (h : isSoft cs = true) :
    isSoft (String.ofList cs).toList = true := by
  rwa [String.toList_ofList]

theorem hasDashes_ofList {cs : List Char} (h : hasDashes cs = false) :
    hasDashes (String.ofList cs).toList = false := by
  rwa [String.toList_ofList]

theorem isSoft_append {as bs : List Char} (ha : isSoft as = true) (hb : isDashless bs = true) :
    isSoft (as ++ bs) = true := by
  rw [isSoft_iff] at ha ⊢
  obtain ⟨some_char, begins, dashless⟩ := ha
  refine ⟨List.append_ne_nil_of_left_ne_nil some_char bs, ?_, isDashless_append dashless hb⟩
  rw [beginsSign_append some_char, begins]

/-- A word after another. -/
theorem isSoft_toList_append {s t : String} (hs : isSoft s.toList = true)
    (ht : isDashless t.toList = true) : isSoft (s ++ t).toList = true := by
  rw [String.toList_append]
  exact isSoft_append hs ht

theorem isDashless_of_isSoft {cs : List Char} (h : isSoft cs = true) : isDashless cs = true :=
  (isSoft_iff.mp h).2.2

/-- A word or a sign between blanks. -/
theorem isSoft_spaced {text : String} (h : hasDashes text.toList = false) :
    isSoft (" " ++ text ++ " ").toList = true := by
  have before : hasDashes (' ' :: text.toList) = false := by
    rw [hasDashes_cons, h]
    rfl
  have dashless : isDashless (' ' :: text.toList ++ [' ']) = true := by
    rw [isDashless_iff]
    refine ⟨hasDashes_append before rfl fun _ => by simp, ?_⟩
    rw [List.getLast?_append]
    simp
  have spelled : (" " ++ text ++ " ").toList = ' ' :: text.toList ++ [' '] := by
    rw [String.toList_append, String.toList_append]
    rfl
  rw [spelled, isSoft_iff]
  exact ⟨List.cons_ne_nil _ _, rfl, dashless⟩

/-! ### The texts of a dialect -/

section
variable (d : Dialect)

theorem isSoft_operatorText {op : BinaryOperator} (h : ∀ text, op ≠ .custom text) :
    isSoft (" " ++ d.operatorText op ++ " ").toList = true := by
  cases op with
  | custom text => exact absurd rfl (h text)
  | _ => exact isSoft_spaced (by cases d <;> exact hasDashes_ofList rfl)

theorem isSoft_likeText (caseSensitive negated : Bool) :
    isSoft (" " ++ d.likeText caseSensitive negated ++ " ").toList = true :=
  isSoft_spaced (by
    cases d <;> cases caseSensitive <;> cases negated <;> exact hasDashes_ofList rfl)

theorem isSoft_regexpText {caseSensitive negated : Bool} {text : String}
    (h : d.regexpText caseSensitive negated = .ok text) :
    isSoft (" " ++ text ++ " ").toList = true :=
  isSoft_spaced (by
    cases d <;> cases caseSensitive <;> cases negated <;> cases h <;> exact hasDashes_ofList rfl)

theorem isSoft_joinText {kind : JoinKind} {text : String} (h : d.joinText kind = .ok text) :
    isSoft text.toList = true := by
  cases d <;> cases kind <;> cases h <;> exact isSoft_ofList rfl

theorem isSoft_boolText (b : Bool) : isSoft (d.boolText b).toList = true := by
  cases d <;> cases b <;> exact isSoft_ofList rfl

end

theorem isSoft_setOperator (op : SetOperator) : isSoft (" " ++ op.text ++ " ").toList = true :=
  isSoft_spaced (by cases op <;> exact hasDashes_ofList rfl)

theorem isSoft_direction (direction : Direction) :
    isSoft (" " ++ direction.text).toList = true := by
  cases direction <;> exact isSoft_toList_append (isSoft_ofList rfl) (isDashless_ofList rfl)

/-! ### Numbers -/

theorem isSign_of_isDigit {c : Char} (h : c.isDigit = true) : isSign c = false := by
  have signs : operatorChars.all (!·.isDigit) = true := rfl
  cases hc : isSign c with
  | false => rfl
  | true =>
      have undigit := List.all_eq_true.mp signs c (by simpa [isSign] using hc)
      rw [h] at undigit
      cases undigit

theorem signless_numeral (n : Nat) : Signless (Text.numeral n) := fun _ hc =>
  isSign_of_isDigit (Nat.isDigit_of_mem_toDigits (by decide) (by decide) hc)

theorem isSoft_numeral (n : Nat) : isSoft (Text.numeral n) = true :=
  isSoft_of_signless (signless_numeral n) Nat.toDigits_ne_nil

theorem isDashless_toString (n : Nat) : isDashless (toString n).toList = true := by
  have digits : (toString n).toList = Text.numeral n := by simp [Text.numeral]
  rw [digits]
  exact isDashless_of_isSoft (isSoft_numeral n)

theorem isDashless_frameBound (bound : FrameBound) : isDashless bound.text.toList = true := by
  cases bound with
  | preceding n | following n =>
      exact isDashless_toList_append (isDashless_toString n) (isDashless_ofList rfl)
  | _ => exact isDashless_ofList rfl

theorem isSoft_frame (f : Frame) : isSoft f.text.toList = true := by
  obtain ⟨units, start, stop?⟩ := f
  have units_soft : isSoft units.text.toList = true := by
    cases units <;> exact isSoft_ofList rfl
  have start_dashless := isDashless_frameBound start
  cases stop? with
  | none =>
      exact isSoft_toList_append (isSoft_toList_append units_soft (isDashless_ofList rfl))
        start_dashless
  | some stop =>
      exact isSoft_toList_append (isSoft_toList_append (isSoft_toList_append
        (isSoft_toList_append units_soft (isDashless_ofList rfl)) start_dashless)
        (isDashless_ofList rfl)) (isDashless_frameBound stop)

theorem isDashless_signed (n : Int) : isDashless (Text.signed n) = true := by
  cases n with
  | ofNat n => exact isDashless_of_isSoft (isSoft_numeral n)
  | negSucc n => exact isDashless_cons (isSoft_numeral (n + 1))

namespace Value

theorem signless_zeros (n : Nat) : Signless (List.replicate n '0') := fun c hc => by
  rw [List.eq_of_mem_replicate hc]
  rfl

theorem isSoft_positional {digits : List Char} (h : Signless digits) (point : Int) :
    isSoft (positional digits point) = true := by
  have some_char : positional digits point ≠ [] := by
    unfold positional
    split_ifs <;> simp
  refine isSoft_of_signless ?_ some_char
  unfold positional
  split_ifs
  · simp [signless_zeros, h, isSign, operatorChars]
  · simp [signless_zeros, h, isSign, operatorChars]
  · simp [h.of_subset (List.take_subset _ _), h.of_subset (List.drop_subset _ _), isSign,
      operatorChars]

/-- The exponent may have a sign, but stands behind its letter. -/
theorem isSoft_scientific {digits : List Char} (h : Signless digits) (point : Int) :
    isSoft (scientific digits point) = true := by
  have mantissa : Signless (digits.take 1 ++
      (if digits.length ≤ 1 then [] else '.' :: digits.drop 1) ++ ['e']) := by
    rw [signless_append, signless_append]
    refine ⟨⟨h.of_subset (List.take_subset _ _), ?_⟩, by simp [isSign, operatorChars]⟩
    split
    · exact signless_nil
    · exact signless_cons.mpr ⟨rfl, h.of_subset (List.drop_subset _ _)⟩
  have soft := isSoft_append (isSoft_of_signless mantissa (by simp)) (isDashless_signed (point - 1))
  rwa [List.append_assoc] at soft

theorem isSoft_spelled (x : Decimal) : isSoft x.spelled = true := by
  have digits : Signless x.significant.1 := by
    refine (signless_numeral x.digits).of_subset fun c hc => ?_
    exact List.mem_reverse.mp ((List.dropWhile_sublist _).subset (List.mem_reverse.mp hc))
  simp only [Decimal.spelled]
  split
  · exact isSoft_positional digits _
  · exact isSoft_scientific digits _

theorem isDashless_finiteText (word : UInt64) : isDashless (finiteText word) = true := by
  have magnitude : isSoft (if isZero word then ['0', '.', '0']
      else (Interval.ofWord word).shortest.spelled) = true := by
    split
    · rfl
    · exact isSoft_spelled _
  rw [finiteText]
  by_cases negative : isNegative word = true
  · rw [if_pos negative]
    exact isDashless_cons magnitude
  · rw [if_neg negative]
    exact isDashless_of_isSoft magnitude

end Value

/-! ### Literals -/

/-- The text outside of the quotes of a literal, which has nothing behind its closing quote. -/
def outsideQuotes (cs : List Char) : List Char :=
  cs.takeWhile (· != '\'') ++ if cs.contains '\'' then ['\'', '\''] else []

theorem head?_outsideQuotes (cs : List Char) : (outsideQuotes cs).head? = cs.head? := by
  cases cs with
  | nil => rfl
  | cons c cs =>
      by_cases quote : c = '\''
      · simp [outsideQuotes, quote]
      · simp [outsideQuotes, quote]

theorem outsideQuotes_of_quiet {cs : List Char} (h : Quiet cs) : outsideQuotes cs = cs := by
  have no_quote : '\'' ∉ cs := fun mem => by cases h '\'' mem
  have all : cs.takeWhile (· != '\'') = cs := by
    rw [List.takeWhile_eq_self_iff]
    intro c hc
    rw [bne_iff_ne]
    rintro rfl
    exact no_quote hc
  simp [outsideQuotes, all, no_quote]

theorem outsideQuotes_append {as : List Char} (h : Quiet as) (bs : List Char) :
    outsideQuotes (as ++ '\'' :: bs) = as ++ ['\'', '\''] := by
  have before : (as ++ '\'' :: bs).takeWhile (· != '\'') = as := by
    rw [List.takeWhile_append_of_pos]
    · simp
    · intro c hc
      rw [bne_iff_ne]
      rintro rfl
      cases h '\'' hc
  simp [outsideQuotes, before]

/-- A text in quotes has nothing outside of them. -/
theorem isDashless_quoted (cs : List Char) : isDashless (outsideQuotes ('\'' :: cs)) = true := by
  rw [show '\'' :: cs = [] ++ '\'' :: cs from rfl, outsideQuotes_append quiet_nil]
  rfl

section
variable (d : Dialect)

theorem isDashless_quoteString (text : String) :
    isDashless (outsideQuotes (d.quoteString text).toList) = true := by
  rw [Dialect.quoteString, String.toList_ofList]
  exact isDashless_quoted _

theorem isDashless_plainString (cs : List Char) :
    isDashless (outsideQuotes (Dialect.plainString cs).toList) = true := by
  rw [Dialect.plainString, String.toList_ofList]
  exact isDashless_quoted _

theorem isDashless_quoteFloat (bits : UInt64) :
    isDashless (outsideQuotes (d.quoteFloat bits).toList) = true := by
  unfold Dialect.quoteFloat
  split_ifs
  · exact isDashless_quoteString d _
  · exact isDashless_quoteString d _
  · exact isDashless_quoteString d _
  · rw [String.toList_ofList, outsideQuotes_of_quiet (Value.quiet_finiteText bits)]
    exact Value.isDashless_finiteText bits

/-- **Outside of its quotes a literal has no two dashes in a row**, and no dash at its end. -/
theorem isDashless_quoteValue (v : Value) :
    isDashless (outsideQuotes (d.quoteValue v).toList) = true := by
  cases v with
  | null =>
      rw [Dialect.quoteValue, outsideQuotes_of_quiet (by simp [isQuiet, loudChars])]
      exact isDashless_ofList rfl
  | bool b =>
      rw [Dialect.quoteValue, outsideQuotes_of_quiet
        (by cases d <;> cases b <;> simp [Dialect.boolText, isQuiet, loudChars])]
      exact isDashless_of_isSoft (isSoft_boolText d b)
  | integer n =>
      rw [Dialect.quoteValue, String.toList_ofList, outsideQuotes_of_quiet (Text.quiet_signed _)]
      exact isDashless_signed n.toInt
  | float bits => exact isDashless_quoteFloat d bits
  | text s => exact isDashless_quoteString d s
  | bytes b =>
      rw [Dialect.quoteValue, Dialect.quoteBytes, String.toList_ofList]
      cases d with
      | postgresql => exact isDashless_quoted _
      | _ =>
          have opened (cs : List Char) : isDashless (outsideQuotes ('X' :: '\'' :: cs)) = true := by
            rw [show 'X' :: '\'' :: cs = ['X'] ++ '\'' :: cs from rfl,
              outsideQuotes_append (by simp [isQuiet, loudChars])]
            rfl
          exact opened _
  | date t => exact isDashless_plainString _
  | moment m => exact isDashless_plainString _
  | uuid bits => exact isDashless_plainString _

end

/-! ### Capitals -/

/-- A dash is no letter, and no letter's capital. -/
theorem hasDashes_upper (cs : List Char) : hasDashes (Text.upper cs) = hasDashes cs := by
  induction cs with
  | nil => rfl
  | cons c cs ih =>
      have dash (x : Char) : x.toUpper = '-' ↔ x = '-' := toUpper_eq_iff (by decide)
      have next : (Text.upper cs).head? = some '-' ↔ cs.head? = some '-' := by
        cases cs with
        | nil => rfl
        | cons next cs => simp [Text.upper, dash next]
      rw [hasDashes_cons c cs, ← ih]
      refine (hasDashes_cons c.toUpper (Text.upper cs)).trans ?_
      simp only [dash c, next]

end SqlTree
