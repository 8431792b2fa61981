import SqlTree.Proofs.Lexing.Statement
import SqlTree.Proofs.Seams.Text

/-!
# SqlTree — Proofs — seams

Lexemes are written one right after the other.  Behind a text that the caller spells, and only
there, an operator at the beginning of the next text may join what stands before it: such a seam is
tight.  A path goes along the lexemes and checks every tight seam (`Path`).

* `Path.apart`: no operator follows right behind a text that the caller spells.
* `Path.hasDashes_outsideText`: outside of quotes and comments there are no two dashes in a row, if
  the caller spells none.
* `Draft.Fits`: the drafts whose lexemes are a path.  They are put together by `++` where the seam
  between them fits.
-/

namespace SqlTree
open Draft

/-- How a text ends. -/
inductive Seam where
  /-- Whatever follows stays apart. -/
  | loose
  /-- What follows must not begin with an operator. -/
  | tight
  deriving DecidableEq

variable {d : Dialect} {undashed : Prop} {s t u : Seam}

namespace Lexeme

/-- The text of a lexeme without what is in quotes, and without what is in a comment. -/
def outside (d : Dialect) : Lexeme → List Char
  | name _ => [d.identifierQuote, d.identifierQuote]
  | string _ => ['\'', '\'']
  | comment .. => ['/', '*', '*', '/']
  | slot b => outsideQuotes ((slot b).inline d).toList
  | l => (l.inline d).toList

/-- How the text ends with the lexeme, given how it ended before. -/
def behind (d : Dialect) (s : Seam) : Lexeme → Seam
  | verbatim _ => .tight
  | l => if (l.inline d).toList.isEmpty then s else .loose

/-- The texts of the language have no two dashes in a row and do not end in one; what the caller
spells has no two of them either, if `undashed` says so. -/
def IsClean (undashed : Prop) : Lexeme → Prop
  | fixed text => isDashless text.toList = true
  | verbatim text => undashed → hasDashes text.toList = false
  | _ => True

/-- What stands outside begins as the whole text does. -/
theorem head?_outside (l : Lexeme) : (l.outside d).head? = (l.inline d).toList.head? := by
  cases l with
  | name text | string text =>
      simp [outside, inline, Lexeme.text, Dialect.quoteIdentifier, Dialect.quoteString, enclosed]
  | comment isHint text => cases isHint <;> simp [outside, inline, Lexeme.text]
  | slot b => exact head?_outsideQuotes _
  | _ => rfl

theorem hasDashes_outside {l : Lexeme} (h : l.IsClean undashed) (hu : undashed) :
    hasDashes (l.outside d) = false := by
  cases l with
  | fixed text => exact (isDashless_iff.mp h).1
  | verbatim text => exact h hu
  | name text => cases d <;> rfl
  | string text | comment isHint text => rfl
  | opening | closing => exact hasDashes_ofList rfl
  | slot b =>
      obtain ⟨name?, _ | v⟩ := b
      · rfl
      · exact (isDashless_iff.mp (isDashless_quoteValue d v)).1

/-- A dash at the end is one that the caller spells. -/
theorem behind_of_getLast? {l : Lexeme} (h : l.IsClean undashed)
    (last : (l.outside d).getLast? = some '-') : l.behind d s = .tight := by
  cases l with
  | fixed text => exact absurd last (isDashless_iff.mp h).2
  | verbatim text => rfl
  | name text => cases d <;> cases last
  | string text | comment isHint text => cases last
  | opening | closing => simp [outside, inline, Lexeme.text] at last
  | slot b =>
      obtain ⟨name?, _ | v⟩ := b
      · cases last
      · exact absurd last (isDashless_iff.mp (isDashless_quoteValue d v)).2

section
variable {l : Lexeme} (own : ∀ text, l ≠ .verbatim text)
include own

theorem behind_of_ne_nil (h : (l.inline d).toList ≠ []) : l.behind d s = .loose := by
  cases l with
  | verbatim text => exact absurd rfl (own text)
  | _ => exact if_neg (mt List.isEmpty_iff.mp h)

theorem behind_loose : l.behind d .loose = .loose := by
  cases l with
  | verbatim text => exact absurd rfl (own text)
  | _ => exact ite_self _

end

theorem behind_mono {l : Lexeme} (h : s = .tight → t = .tight) :
    l.behind d s = .tight → l.behind d t = .tight := by
  unfold behind
  split
  · exact id
  · split
    · exact h
    · exact id

end Lexeme

/-- The text of lexemes without what is in quotes or in comments. -/
def outsideText (d : Dialect) (ls : List Lexeme) : List Char := ls.flatMap (Lexeme.outside d)

theorem head?_outsideText (ls : List Lexeme) :
    (outsideText d ls).head? = (inlineText d ls).head? := by
  induction ls with
  | nil => rfl
  | cons l ls ih =>
      simp only [outsideText, inlineText, List.flatMap_cons, List.head?_append] at ih ⊢
      rw [l.head?_outside, ih]

/-! ### Paths -/

/-- Behind a text that ends as `s` says the lexemes may be written, and the whole ends as `t` says,
or looser. -/
inductive Path (d : Dialect) (undashed : Prop) : Seam → List Lexeme → Seam → Prop
  | nil {s t : Seam} (h : s = .tight → t = .tight) : Path d undashed s [] t
  | cons {s t : Seam} {l : Lexeme} {ls : List Lexeme}
      (apart : s = .tight → beginsSign (l.inline d).toList = false)
      (clean : l.IsClean undashed) (rest : Path d undashed (l.behind d s) ls t) :
      Path d undashed s (l :: ls) t

namespace Path

variable {ls ms : List Lexeme}

/-- What may be written behind a tight seam may be written anywhere. -/
theorem of_tighter (h : Path d undashed t ls u) (hs : s = .tight → t = .tight) :
    Path d undashed s ls u := by
  induction h generalizing s with
  | nil htu => exact .nil fun h => htu (hs h)
  | cons apart clean _ ih =>
      exact .cons (fun h => apart (hs h)) clean (ih (Lexeme.behind_mono hs))

/-- What ends loosely may be taken to end tightly. -/
theorem of_looser (h : Path d undashed s ls t) (ht : t = .tight → u = .tight) :
    Path d undashed s ls u := by
  induction h with
  | nil hst => exact .nil fun h => ht (hst h)
  | cons apart clean _ ih => exact .cons apart clean (ih ht)

theorem append (h₁ : Path d undashed s ls t) (h₂ : Path d undashed t ms u) :
    Path d undashed s (ls ++ ms) u := by
  induction h₁ with
  | nil hst => exact h₂.of_tighter hst
  | cons apart clean _ ih => exact .cons apart clean (ih h₂)

/-- A text behind a tight seam does not begin with an operator: what writes nothing leaves the seam
tight. -/
theorem beginsSign_inlineText (h : Path d undashed .tight ls t) :
    beginsSign (inlineText d ls) = false := by
  generalize hs : Seam.tight = s at h
  induction h with
  | nil _ => rfl
  | @cons s t l ls apart _ _ ih =>
      subst hs
      rw [inlineText, List.flatMap_cons]
      by_cases empty : (l.inline d).toList = []
      · rw [empty, List.nil_append]
        refine ih ?_
        unfold Lexeme.behind
        split
        · rfl
        · simp [empty]
      · rw [beginsSign_append empty]
        exact apart rfl

theorem behind_verbatim {before after : List Lexeme} {text : String}
    (h : Path d undashed s (before ++ .verbatim text :: after) t) :
    Path d undashed .tight after t := by
  induction before generalizing s with
  | nil =>
      cases h with
      | cons _ _ rest => exact rest
  | cons l before ih =>
      cases h with
      | cons _ _ rest => exact ih rest

/-- **No operator follows right behind a text that the caller spells.** -/
theorem apart {before after : List Lexeme} {text : String}
    (h : Path d undashed s (before ++ .verbatim text :: after) t) :
    beginsSign (inlineText d after) = false :=
  h.behind_verbatim.beginsSign_inlineText

/-- **No two dashes in a row** outside of quotes and comments, if the caller spells none. -/
theorem hasDashes_outsideText (h : Path d undashed s ls t) (hu : undashed) :
    hasDashes (outsideText d ls) = false := by
  induction h with
  | nil _ => rfl
  | @cons s t l ls _ clean rest ih =>
      refine hasDashes_append (Lexeme.hasDashes_outside clean hu) ih fun last => ?_
      rw [Lexeme.behind_of_getLast? clean last] at rest
      have begins := head?_ne_dash rest.beginsSign_inlineText
      rwa [← head?_outsideText] at begins

end Path

/-! ### Drafts -/

namespace Draft

/-- If writing came to the end, what was written fits behind a text that ends as `s` says, and ends
as `t` says. -/
def Fits (d : Dialect) (undashed : Prop) (s t : Seam) (a : Draft) : Prop :=
  a.IsWhole → Path d undashed s a.lexemes t

namespace Fits

variable {a b : Draft}

theorem append (ha : a.Fits d undashed s t) (hb : b.Fits d undashed t u) :
    (a ++ b).Fits d undashed s u := fun whole => by
  rw [isWhole_append] at whole
  rw [lexemes_append _ whole.1]
  exact (ha whole.1).append (hb whole.2)

theorem of_looser (h : a.Fits d undashed s .loose) : a.Fits d undashed s t := fun whole =>
  (h whole).of_looser nofun

theorem tighten (h : a.Fits d undashed s t) : a.Fits d undashed s .tight := fun whole =>
  (h whole).of_looser fun _ => rfl

theorem nothing : Draft.nothing.Fits d undashed s s := fun _ => .nil id

/-- A draft that stopped is never read. -/
theorem fail (e : Error) : (Draft.fail e).Fits d undashed s t := fun whole => by cases whole

/-! ### Single lexemes -/

theorem lexeme {l : Lexeme} (apart : s = .tight → beginsSign (l.inline d).toList = false)
    (clean : l.IsClean undashed) (ends : l.behind d s = .tight → t = .tight) :
    Fits d undashed s t ⟨[l], none⟩ := fun _ => .cons apart clean (.nil ends)

section
variable {l : Lexeme} (own : ∀ text, l ≠ .verbatim text) (clean : l.IsClean undashed)
include own clean

/-- A lexeme of the language that begins with no sign fits anywhere. -/
theorem unsigned {c : Char} {cs : List Char} (begins : (l.inline d).toList = c :: cs)
    (other : isSign c = false) : Fits d undashed s .loose ⟨[l], none⟩ := by
  refine lexeme (fun _ => ?_) clean fun ends => ?_
  · rw [begins]
    exact other
  · rw [Lexeme.behind_of_ne_nil own (by simp [begins])] at ends
    cases ends

/-- Behind a loose seam it may begin with one. -/
theorem signed : Fits d undashed .loose .loose ⟨[l], none⟩ := by
  refine lexeme nofun clean fun ends => ?_
  rw [Lexeme.behind_loose own] at ends
  exact ends

end

theorem fixed {text : String} (h : isSoft text.toList = true) :
    (Draft.fixed text).Fits d undashed s .loose := by
  obtain ⟨some_char, begins, dashless⟩ := isSoft_iff.mp h
  obtain ⟨c, cs, hcs⟩ := List.exists_cons_of_ne_nil some_char
  rw [hcs] at begins
  exact unsigned (by simp) dashless hcs begins

/-- A text that is spelled out, which is checked character by character. -/
theorem word {cs : List Char} (h : isSoft cs = true) :
    (Draft.fixed (String.ofList cs)).Fits d undashed s .loose := fixed (isSoft_ofList h)

/-- A sign that is spelled out. -/
theorem sign {cs : List Char} (h : isDashless cs = true) :
    (Draft.fixed (String.ofList cs)).Fits d undashed .loose .loose :=
  signed (by simp) (isDashless_ofList h)

theorem ident (text : String) : (Draft.ident text).Fits d undashed s .loose :=
  unsigned (by simp) trivial String.toList_ofList (by cases d <;> rfl)

theorem stringLiteral (text : String) : (Draft.stringLiteral text).Fits d undashed s .loose :=
  unsigned (by simp) trivial String.toList_ofList rfl

/-- A comment begins with a sign. -/
theorem remark (isHint : Bool) (text : String) :
    (Draft.remark isHint text).Fits d undashed .loose .loose := signed (by simp) trivial

/-- What the caller spells ends in a tight seam. -/
theorem verbatim {text : String} (apart : s = .tight → beginsSign text.toList = false)
    (clean : undashed → hasDashes text.toList = false) :
    (Draft.verbatim text).Fits d undashed s .tight := lexeme apart clean fun _ => rfl

theorem verbatim_loose {text : String} (clean : undashed → hasDashes text.toList = false) :
    (Draft.verbatim text).Fits d undashed .loose .tight := verbatim nofun clean

theorem slot {b : Bind}
    (apart : s = .tight → beginsSign ((Lexeme.slot b).inline d).toList = false) :
    (Draft.slot b).Fits d undashed s .tight := lexeme apart trivial fun _ => rfl

/-! ### Combinations -/

/-- Parentheses are apart from anything. -/
theorem parens (h : a.Fits d undashed .loose t) : a.parens.Fits d undashed s .loose := by
  have opening : Fits d undashed s .loose ⟨[.opening], none⟩ :=
    unsigned (by simp) trivial String.toList_ofList rfl
  have closing : Fits d undashed .tight .loose ⟨[.closing], none⟩ :=
    unsigned (by simp) trivial String.toList_ofList rfl
  exact (opening.append h.tighten).append closing

theorem onlyIf (condition : Bool) (h : a.Fits d undashed s .loose) :
    (onlyIf condition a).Fits d undashed s s := by
  cases condition with
  | true => exact h.of_looser
  | false => exact nothing

theorem inOrder {as : List Draft} (h : ∀ a ∈ as, a.Fits d undashed s s) :
    (inOrder as).Fits d undashed s s := by
  induction as with
  | nil => exact nothing
  | cons a as ih =>
      exact (h a List.mem_cons_self).append (ih fun b hb => h b (List.mem_cons_of_mem a hb))

/-- A list whose items stand apart by a word; only the first may have a tight seam before it. -/
theorem sepBy {between : List Char} (soft : isSoft between = true) {as : List Draft}
    (first : ∀ a ∈ as.head?, a.Fits d undashed s .tight)
    (h : ∀ a ∈ as, a.Fits d undashed .loose .tight) :
    (sepBy (String.ofList between) as).Fits d undashed s .tight := by
  induction as generalizing s with
  | nil => exact nothing.tighten
  | cons a as ih =>
      have rest := fun b hb => h b (List.mem_cons_of_mem a hb)
      cases as with
      | nil => exact first a rfl
      | cons b bs =>
          exact ((first a rfl).append (word soft)).append
            (ih (fun c hc => rest c (List.mem_of_head? hc)) rest)

/-- A list behind a loose seam. -/
theorem sepBy_loose {between : List Char} (soft : isSoft between = true) {as : List Draft}
    (h : ∀ a ∈ as, a.Fits d undashed .loose .tight) :
    (Draft.sepBy (String.ofList between) as).Fits d undashed .loose .tight :=
  sepBy soft (fun a ha => h a (List.mem_of_head? ha)) h

theorem clause {keyword between : List Char} (begins : isSoft keyword = true)
    (separates : isSoft between = true) {as : List Draft}
    (h : ∀ a ∈ as, a.Fits d undashed .loose .tight) :
    (clause (String.ofList keyword) (String.ofList between) as).Fits d undashed .tight .tight := by
  cases as with
  | nil => exact nothing
  | cons a as => exact (word begins).append (sepBy_loose separates h)

/-- What is there or not. -/
theorem option {γ : Type} (x? : Option γ) {a : γ → Draft}
    (h : ∀ x ∈ x?, (a x).Fits d undashed s s) :
    ((x?.map a).getD Draft.nothing).Fits d undashed s s := by
  cases x? with
  | none => exact nothing
  | some x => exact h x rfl

end Fits

end Draft

end SqlTree
