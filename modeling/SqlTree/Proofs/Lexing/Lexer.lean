import SqlTree.Proofs.Lexing.Comment
import SqlTree.Proofs.Lexing.Letter
import SqlTree.Proofs.Lexing.Quoted
import SqlTree.Proofs.Writing.Wording

/-!
# SqlTree — Proofs — the lexer of a dialect

A lexer reads a text character by character.  It knows the strings and quoted identifiers of the
dialect, comments between `/*` and `*/`, which one dialect nests, and parentheses; whatever else
there is it skips.  It stops at a closing parenthesis that closes nothing.

A text passes the lexer (`Lexer.Passes`) if reading it from outside of literals and comments ends
outside of them, at the same depth of parentheses.  Texts that pass can be put together and put in
parentheses, and pass again.

* `Lexer.passes_quoteString`, `Lexer.passes_quoteIdentifier`: literals pass whatever they hold, for
  what a reader of literals takes, the lexer reads as one literal (`Lexer.run_scanInside`).
* `Lexer.passes_comment`: a comment passes if its text has no marks.
* `Lexer.passes_of_isTame`: what the caller spells passes if its parentheses are balanced and it has
  no quotes, slashes or stars.
-/

namespace SqlTree

namespace Dialect

/-- The characters that begin a string or a quoted identifier, and end it. -/
def quotes : Dialect → List Char
  | mysql | sqlite => ['\'', '"', '\x60']
  | generic | postgresql => ['\'', '"']

/-- Whether a backslash between these quotes takes the next character with it. -/
def escapesIn (d : Dialect) (quote : Char) : Bool := d.escapesBackslash && quote != '\x60'

/-- Whether a comment may stand in a comment. -/
def nestsComments : Dialect → Bool
  | postgresql => true
  | generic | mysql | sqlite => false

end Dialect

namespace Lexer

/-- What the lexer is in the middle of. -/
inductive Mode where
  /-- Neither a literal nor a comment. -/
  | code
  /-- After a slash that may begin a comment. -/
  | slash
  /-- A string or an identifier.  A quote written twice leaves it and enters it again. -/
  | quoted (quote : Char)
  /-- A string, after a backslash. -/
  | escaped (quote : Char)
  /-- A comment within so many others, after some character of it. -/
  | comment (outer : Nat) (last : Char)
  deriving DecidableEq

structure State where
  mode : Mode
  /-- The number of parentheses that are open. -/
  depth : Nat
  deriving DecidableEq

/-- Before a text. -/
def start : State := ⟨.code, 0⟩

section
variable (d : Dialect)

/-- One character outside of literals and comments. -/
def stepCode (depth : Nat) (c : Char) : Option State :=
  if c ∈ d.quotes then some ⟨.quoted c, depth⟩
  else if c = '/' then some ⟨.slash, depth⟩
  else if c = '(' then some ⟨.code, depth + 1⟩
  else if c = ')' then if depth = 0 then none else some ⟨.code, depth - 1⟩
  else some ⟨.code, depth⟩

def step : State → Char → Option State
  | ⟨.code, depth⟩, c => stepCode d depth c
  | ⟨.slash, depth⟩, c => if c = '*' then some ⟨.comment 0 ' ', depth⟩ else stepCode d depth c
  | ⟨.quoted quote, depth⟩, c =>
    if c = quote then some ⟨.code, depth⟩
    else if d.escapesIn quote ∧ c = '\\' then some ⟨.escaped quote, depth⟩
    else some ⟨.quoted quote, depth⟩
  | ⟨.escaped quote, depth⟩, _ => some ⟨.quoted quote, depth⟩
  | ⟨.comment outer last, depth⟩, c =>
    if last = '*' ∧ c = '/' then
      some ⟨if outer = 0 then .code else .comment (outer - 1) ' ', depth⟩
    else if d.nestsComments ∧ last = '/' ∧ c = '*' then some ⟨.comment (outer + 1) ' ', depth⟩
    else some ⟨.comment outer c, depth⟩

/-- The state after a text, unless a parenthesis is closed that is not open. -/
def run (s : State) (cs : List Char) : Option State := cs.foldlM (step d) s

/-- The text ends where it began: outside of literals and comments, with the same parentheses
open. -/
def Passes (cs : List Char) : Prop := ∀ depth, run d ⟨.code, depth⟩ cs = some ⟨.code, depth⟩

end

variable {d : Dialect}

@[simp] theorem run_nil (s : State) : run d s [] = some s := rfl

theorem run_cons (s : State) (c : Char) (cs : List Char) :
    run d s (c :: cs) = (step d s c).bind fun s' => run d s' cs := rfl

theorem run_cons_of_step {s s' : State} {c : Char} (h : step d s c = some s') (cs : List Char) :
    run d s (c :: cs) = run d s' cs := by
  rw [run_cons, h, Option.bind_some]

theorem run_append (s : State) (as bs : List Char) :
    run d s (as ++ bs) = (run d s as).bind fun s' => run d s' bs :=
  List.foldlM_append

theorem run_append_of_run {s s' : State} {as : List Char} (h : run d s as = some s')
    (bs : List Char) : run d s (as ++ bs) = run d s' bs := by
  rw [run_append, h, Option.bind_some]

/-! ### Texts that pass -/

theorem Passes.nil : Passes d [] := fun _ => rfl

theorem Passes.append {as bs : List Char} (ha : Passes d as) (hb : Passes d bs) :
    Passes d (as ++ bs) := fun depth => by
  rw [run_append_of_run (ha depth), hb depth]

theorem Passes.cons {c : Char} {cs : List Char}
    (hc : ∀ depth, step d ⟨.code, depth⟩ c = some ⟨.code, depth⟩) (h : Passes d cs) :
    Passes d (c :: cs) := fun depth => by
  rw [run_cons_of_step (hc depth), h depth]

theorem step_opening (depth : Nat) : step d ⟨.code, depth⟩ '(' = some ⟨.code, depth + 1⟩ := by
  cases d <;> rfl

theorem step_closing (depth : Nat) : step d ⟨.code, depth + 1⟩ ')' = some ⟨.code, depth⟩ := by
  cases d <;> rfl

/-- In parentheses, a text that passes passes. -/
theorem Passes.parens {cs : List Char} (h : Passes d cs) : Passes d ('(' :: cs ++ [')']) :=
  fun depth => by
    rw [List.cons_append, run_cons_of_step (step_opening depth),
      run_append_of_run (h (depth + 1)), run_cons_of_step (step_closing depth), run_nil]

/-! ### Quiet characters -/

theorem quotes_subset : d.quotes ⊆ loudChars := by
  cases d <;> decide

theorem step_code_of_isQuiet {c : Char} (h : isQuiet c = true) (depth : Nat) :
    step d ⟨.code, depth⟩ c = some ⟨.code, depth⟩ := by
  have quiet : c ∉ loudChars := by simpa [isQuiet] using h
  have quote : c ∉ d.quotes := fun h' => quiet (quotes_subset h')
  simp only [loudChars, List.mem_cons, not_or] at quiet
  simp [step, stepCode, quote, quiet]

theorem step_quoted_of_isQuiet {c quote : Char} (hquote : quote ∈ d.quotes)
    (h : isQuiet c = true) (depth : Nat) :
    step d ⟨.quoted quote, depth⟩ c = some ⟨.quoted quote, depth⟩ := by
  have quiet : c ∉ loudChars := by simpa [isQuiet] using h
  have apart : c ≠ quote := fun h' => quiet (h' ▸ quotes_subset hquote)
  simp only [loudChars, List.mem_cons, not_or] at quiet
  simp [step, apart, quiet]

/-- Wording passes. -/
theorem passes_of_isWording {cs : List Char} (h : isWording cs = true) : Passes d cs := by
  fun_induction isWording cs with
  | case1 cs ih =>
      intro depth
      have slash : step d ⟨.code, depth⟩ '/' = some ⟨.slash, depth⟩ := by cases d <;> rfl
      have blank : step d ⟨.slash, depth⟩ ' ' = some ⟨.code, depth⟩ := by cases d <;> rfl
      rw [run_cons_of_step slash, run_cons_of_step blank, ih h depth]
  | case2 c cs _ ih =>
      rw [Bool.and_eq_true] at h
      exact .cons (step_code_of_isQuiet h.1) (ih h.2)
  | case3 => exact .nil

theorem passes_of_quiet {cs : List Char} (h : Quiet cs) : Passes d cs :=
  passes_of_isWording (isWording_of_quiet h)

/-! ### Strings and identifiers -/

theorem step_quote {quote : Char} (h : quote ∈ d.quotes) (depth : Nat) :
    step d ⟨.code, depth⟩ quote = some ⟨.quoted quote, depth⟩ := by
  simp [step, stepCode, h]

theorem step_unquote (quote : Char) (depth : Nat) :
    step d ⟨.quoted quote, depth⟩ quote = some ⟨.code, depth⟩ := by
  simp [step]

theorem step_escape {c quote : Char} (apart : c ≠ quote)
    (escapes : d.escapesIn quote = true ∧ c = '\\') (depth : Nat) :
    step d ⟨.quoted quote, depth⟩ c = some ⟨.escaped quote, depth⟩ := by
  simp only [step, if_neg apart, if_pos escapes]

theorem step_inside {c quote : Char} (apart : c ≠ quote)
    (plain : ¬(d.escapesIn quote = true ∧ c = '\\')) (depth : Nat) :
    step d ⟨.quoted quote, depth⟩ c = some ⟨.quoted quote, depth⟩ := by
  simp only [step, if_neg apart, if_neg plain]

/-- What was read before does not change what is left. -/
theorem exists_of_map_readBefore {cs text rest : List Char} {read? : Option (List Char × List Char)}
    (h : read?.map (readBefore cs) = some (text, rest)) : ∃ text', read? = some (text', rest) := by
  obtain ⟨read, rfl, hread⟩ := Option.map_eq_some_iff.mp h
  exact ⟨read.1, by rw [← (Prod.mk.inj hread).2]⟩

/-- The inside of a literal and the quote that ends it, as a reader of literals takes them, the
lexer reads to the end of that literal. -/
theorem run_scanInside {quote : Char} (hquote : quote ∈ d.quotes) {cs text rest : List Char}
    (h : scanInside quote (d.escapesIn quote) cs = some (text, rest)) (depth : Nat) :
    run d ⟨.quoted quote, depth⟩ cs = run d ⟨.code, depth⟩ rest := by
  fun_induction scanInside quote (d.escapesIn quote) cs generalizing text with
  | case1 | case3 => cases h
  | case2 =>
      cases h
      rw [run_cons_of_step (step_unquote quote depth)]
  -- a quote written twice
  | case4 cs ih =>
      obtain ⟨text, h⟩ := exists_of_map_readBefore h
      rw [run_cons_of_step (step_unquote quote depth), run_cons_of_step (step_quote hquote depth),
        ih h]
  | case5 next cs =>
      cases h
      rw [run_cons_of_step (step_unquote quote depth)]
  | case6 c next cs apart escapes ih =>
      obtain ⟨text, h⟩ := exists_of_map_readBefore h
      rw [run_cons_of_step (step_escape apart escapes depth), run_cons_of_step rfl, ih h]
  | case7 c next cs apart plain ih =>
      obtain ⟨text, h⟩ := exists_of_map_readBefore h
      rw [run_cons_of_step (step_inside apart plain depth), ih h]

/-- A text that is one literal to a reader of literals passes. -/
theorem passes_of_scanQuoted {quote : Char} (hquote : quote ∈ d.quotes) {cs text : List Char}
    (h : scanQuoted quote (d.escapesIn quote) cs = some (text, [])) : Passes d cs := by
  intro depth
  cases cs with
  | nil => cases h
  | cons c cs =>
      rw [scanQuoted] at h
      split at h
      · next hc =>
          rw [hc, run_cons_of_step (step_quote hquote depth), run_scanInside hquote h, run_nil]
      · cases h

variable (d)

theorem scanString_eq : d.scanString = scanQuoted '\'' (d.escapesIn '\'') := by
  cases d <;> rfl

theorem scanName_eq :
    d.scanName = scanQuoted d.identifierQuote (d.escapesIn d.identifierQuote) := by
  cases d <;> rfl

theorem quote_mem_quotes : '\'' ∈ d.quotes := by
  cases d <;> decide

theorem identifierQuote_mem_quotes : d.identifierQuote ∈ d.quotes := by
  cases d <;> decide

theorem passes_quoteString (s : String) : Passes d (d.quoteString s).toList := by
  have read := d.scanString_quoteString s (r := []) (by simp)
  rw [List.append_nil, scanString_eq] at read
  exact passes_of_scanQuoted (quote_mem_quotes d) read

theorem passes_quoteIdentifier (s : String) : Passes d (d.quoteIdentifier s).toList := by
  have read := d.scanName_quoteIdentifier s (r := []) (by simp)
  rw [List.append_nil, scanName_eq] at read
  exact passes_of_scanQuoted (identifierQuote_mem_quotes d) read

variable {d}

/-- Characters between quotes that mean nothing there. -/
theorem passes_quoted {cs : List Char}
    (h : ∀ depth, run d ⟨.quoted '\'', depth⟩ cs = some ⟨.quoted '\'', depth⟩) :
    Passes d ('\'' :: cs ++ ['\'']) := by
  intro depth
  rw [List.cons_append, run_cons_of_step (step_quote (quote_mem_quotes d) depth),
    run_append_of_run (h depth), run_cons_of_step (step_unquote _ depth), run_nil]

theorem run_quoted_of_quiet {quote : Char} (hquote : quote ∈ d.quotes) {cs : List Char}
    (h : Quiet cs) (depth : Nat) :
    run d ⟨.quoted quote, depth⟩ cs = some ⟨.quoted quote, depth⟩ := by
  induction cs with
  | nil => rfl
  | cons c cs ih =>
      rw [quiet_cons] at h
      rw [run_cons_of_step (step_quoted_of_isQuiet hquote h.1 depth)]
      exact ih h.2

/-! ### Comments -/

/-- The rest of a comment without marks, and the mark that closes it. -/
theorem run_comment {last : Char} {cs : List Char} (h : Comment.hasMark (last :: cs) = false)
    (depth : Nat) :
    run d ⟨.comment 0 last, depth⟩ (cs ++ [' ', '*', '/']) = some ⟨.code, depth⟩ := by
  induction cs generalizing last with
  | nil => simp [run_cons, step]
  | cons c cs ih =>
      simp only [Comment.hasMark, Comment.hasPair, Bool.or_eq_false_iff] at h
      obtain ⟨⟨opening, hopening⟩, closing, hclosing⟩ := h
      have stays : step d ⟨.comment 0 last, depth⟩ c = some ⟨.comment 0 c, depth⟩ := by
        have closed : ¬(last = '*' ∧ c = '/') := by simpa using closing
        have opened : ¬(d.nestsComments = true ∧ last = '/' ∧ c = '*') :=
          fun h => absurd h.2 (by simpa using opening)
        simp only [step, if_neg closed, if_neg opened]
      rw [List.cons_append, run_cons_of_step stays]
      exact ih (by rw [Comment.hasMark, hopening, hclosing]; rfl)

/-- A comment without marks passes, whatever stands between its opening mark and its text. -/
theorem passes_comment {cs : List Char} (h : Comment.hasMark (' ' :: cs) = false) :
    Passes d ('/' :: '*' :: cs ++ [' ', '*', '/']) := fun depth => by
  have slash : step d ⟨.code, depth⟩ '/' = some ⟨.slash, depth⟩ := by cases d <;> rfl
  have star : step d ⟨.slash, depth⟩ '*' = some ⟨.comment 0 ' ', depth⟩ := by cases d <;> rfl
  rw [List.cons_append, List.cons_append, run_cons_of_step slash, run_cons_of_step star,
    run_comment h]

/-! ### What the caller spells -/

end Lexer

/-- With so many parentheses open before, all are closed at the end, and none is closed that is not
open. -/
def isBalanced (depth : Nat) : List Char → Bool
  | [] => depth == 0
  | c :: cs =>
    if c = '(' then isBalanced (depth + 1) cs
    else if c = ')' then depth != 0 && isBalanced (depth - 1) cs
    else isBalanced depth cs

/-- What the characters of a tame text are not. -/
def Dialect.wildChars (d : Dialect) : List Char := d.quotes ++ ['/', '*']

/-- Balanced parentheses, and no quotes, slashes or stars. -/
structure IsTame (d : Dialect) (text : String) : Prop where
  balanced : isBalanced 0 text.toList = true
  bare : ∀ c ∈ text.toList, c ∉ d.wildChars

variable {d : Dialect}

namespace Lexer

theorem run_of_isBalanced {cs : List Char} {inner : Nat} (balanced : isBalanced inner cs = true)
    (bare : ∀ c ∈ cs, c ∉ d.wildChars) (depth : Nat) :
    run d ⟨.code, depth + inner⟩ cs = some ⟨.code, depth⟩ := by
  fun_induction isBalanced inner cs with
  | case1 inner =>
      obtain rfl : inner = 0 := by simpa using balanced
      rfl
  | case2 inner cs ih =>
      rw [run_cons_of_step (step_opening _)]
      exact ih balanced fun c hc => bare c (List.mem_cons_of_mem _ hc)
  | case3 inner cs _ ih =>
      rw [Bool.and_eq_true, bne_iff_ne] at balanced
      obtain ⟨inner, rfl⟩ := Nat.exists_eq_add_one_of_ne_zero balanced.1
      rw [← Nat.add_assoc, run_cons_of_step (step_closing _)]
      exact ih balanced.2 fun c hc => bare c (List.mem_cons_of_mem _ hc)
  | case4 inner c cs opening closing ih =>
      obtain ⟨quote, other⟩ := not_or.mp (List.mem_append.not.mp (bare c List.mem_cons_self))
      have slash : c ≠ '/' := List.ne_of_not_mem_cons other
      have skipped : step d ⟨.code, depth + inner⟩ c = some ⟨.code, depth + inner⟩ := by
        simp only [step, stepCode, if_neg quote, if_neg slash, if_neg opening, if_neg closing]
      rw [run_cons_of_step skipped]
      exact ih balanced fun c' hc => bare c' (List.mem_cons_of_mem c hc)

/-- A tame text passes. -/
theorem passes_of_isTame {text : String} (h : IsTame d text) : Passes d text.toList :=
  fun depth => run_of_isBalanced h.balanced h.bare depth

end Lexer

/-! ### Capitals -/

theorem isBalanced_upper (depth : Nat) (cs : List Char) :
    isBalanced depth (Text.upper cs) = isBalanced depth cs := by
  induction cs generalizing depth with
  | nil => rfl
  | cons c cs ih =>
      have opening : c.toUpper = '(' ↔ c = '(' := toUpper_eq_iff (by decide)
      have closing : c.toUpper = ')' ↔ c = ')' := toUpper_eq_iff (by decide)
      simp only [Text.upper, List.map_cons, isBalanced, opening, closing] at ih ⊢
      simp only [ih]

/-- In capitals a tame text stays tame. -/
theorem IsTame.upper {text : String} (h : IsTame d text) :
    IsTame d (String.ofList (Text.upper text.toList)) where
  balanced := by
    rw [String.toList_ofList, isBalanced_upper]
    exact h.balanced
  bare := by
    rw [String.toList_ofList]
    intro c hc wild
    obtain ⟨small, hsmall, rfl⟩ := List.mem_map.mp hc
    have letterless : d.wildChars.all (!·.isAlpha) = true := by cases d <;> rfl
    have letter : small.toUpper.isAlpha = false := by
      simpa using List.all_eq_true.mp letterless _ wild
    exact h.bare small hsmall ((toUpper_eq_iff letter).mp rfl ▸ wild)

end SqlTree
