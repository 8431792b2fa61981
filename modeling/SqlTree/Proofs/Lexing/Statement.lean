import SqlTree.Proofs.Lexing.Value
import SqlTree.Proofs.Reading.Agreement

/-!
# SqlTree — Proofs — statements are lexically closed

Whatever identifiers, texts, bytes, comments and hints hold, no statement leaves a literal or a
comment open, or a parenthesis: every draft is put together from wording, quoted texts, values and
cleaned comments, and parentheses come in pairs.  Only what the caller spells can break it.

* `Node.run_toSql`: reading a statement, the lexer ends as it began.
-/

namespace SqlTree
open Lexer

/-! ### Inline texts -/

/-- The text of a lexeme where values stand as literals. -/
def Lexeme.inline (d : Dialect) : Lexeme → String
  | slot ⟨_, some v⟩ => d.quoteValue v
  | l => l.text d

/-- The characters of lexemes where values stand as literals. -/
def inlineText (d : Dialect) (ls : List Lexeme) : List Char :=
  ls.flatMap fun l => (l.inline d).toList

variable {d : Dialect}

/-- The texts of lexemes are their inline texts, if no slot stops the reading. -/
theorem texts_eq_inline {ls : List Lexeme} (h : (Draft.texts d (Draft.literal d) ls).2 = none) :
    (Draft.texts d (Draft.literal d) ls).1 = ls.map (Lexeme.inline d) := by
  induction ls with
  | nil => rfl
  | cons l ls ih =>
      cases l with
      | slot b =>
          obtain ⟨name?, _ | v⟩ := b
          · cases h
          · exact congrArg (d.quoteValue v :: ·) (ih h)
      | _ => exact congrArg (_ :: ·) (ih h)

theorem toList_of_toSql {a : Draft} {sql : String} (h : a.toSql d = .ok sql) :
    a.IsWhole ∧ sql.toList = inlineText d a.lexemes := by
  rw [Draft.toSql_eq, ← texts_of_firstUnbound (d := d)] at h
  split at h
  · next unstopped =>
      rw [Option.or_eq_none_iff] at unstopped
      refine ⟨unstopped.2, ?_⟩
      rw [← Except.ok.inj h, texts_eq_inline unstopped.1, String.toList_join, List.flatMap_map]
      rfl
  · cases h

/-! ### Drafts -/

/-- If writing came to the end, what was written passes the lexer. -/
def Draft.Passes (d : Dialect) (a : Draft) : Prop :=
  a.IsWhole → Lexer.Passes d (inlineText d a.lexemes)

namespace Draft.Passes

theorem of_lexeme {l : Lexeme} (h : Lexer.Passes d (l.inline d).toList) :
    Draft.Passes d ⟨[l], none⟩ := fun _ => by
  simpa [inlineText] using h

theorem comment (isHint : Bool) {text : String} (h : Comment.hasMark text.toList = false) :
    Draft.Passes d (remark isHint text) := by
  refine of_lexeme ?_
  -- a blank stands between the text and what begins the comment
  have begun (cs : List Char) (hcs : Comment.hasMark (' ' :: cs) = false) :
      Lexer.Passes d ('/' :: '*' :: (cs ++ ' ' :: text.toList) ++ [' ', '*', '/']) :=
    passes_comment ((Comment.hasMark_append_blank (' ' :: cs) _).trans (by rw [hcs, h]; rfl))
  cases isHint with
  | true =>
      have spelled : (Lexeme.inline d (.comment true text)).toList =
          '/' :: '*' :: (['+'] ++ ' ' :: text.toList) ++ [' ', '*', '/'] := by
        simp [Lexeme.inline, Lexeme.text]
      exact spelled ▸ begun ['+'] (by decide)
  | false =>
      have spelled : (Lexeme.inline d (.comment false text)).toList =
          '/' :: '*' :: ([] ++ ' ' :: text.toList) ++ [' ', '*', '/'] := by
        simp [Lexeme.inline, Lexeme.text]
      exact spelled ▸ begun [] (by decide)

theorem lexeme {l : Lexeme} (h : l.isPlain = true) : Draft.Passes d ⟨[l], none⟩ := by
  cases l with
  | fixed text | verbatim text => exact of_lexeme (passes_of_isWording h)
  | name text => exact of_lexeme (passes_quoteIdentifier d text)
  | string text => exact of_lexeme (passes_quoteString d text)
  | comment isHint text => exact comment isHint (by simpa [Lexeme.isPlain] using h)
  | opening | closing | slot b => cases h

theorem slot (b : Bind) : Draft.Passes d (Draft.slot b) := by
  refine of_lexeme ?_
  obtain ⟨name?, _ | v⟩ := b
  · exact .nil
  · exact passes_quoteValue d v

/-- What passes can be put together, and put in parentheses. -/
theorem congruence (d : Dialect) : Congruence fun a _ => Draft.Passes d a where
  nothing := fun _ => .nil
  append {a _ b _} ha hb whole := by
    rw [isWhole_append] at whole
    rw [lexemes_append _ whole.1, inlineText, List.flatMap_append]
    exact (ha whole.1).append (hb whole.2)
  parens {a _} ha whole := by
    rw [isWhole_parens] at whole
    have enclosed : inlineText d a.parens.lexemes = '(' :: inlineText d a.lexemes ++ [')'] := by
      have before : (⟨[.opening], none⟩ ++ a : Draft).IsWhole :=
        isWhole_append.mpr ⟨rfl, whole⟩
      rw [parens, lexemes_append _ before, lexemes_append _ rfl]
      simp [inlineText, Lexeme.inline, Lexeme.text]
    rw [enclosed]
    exact (ha whole).parens
  lexeme _ := lexeme

end Draft.Passes

/-- **Statements are lexically closed.**  If the pieces of SQL that the caller spells have balanced
parentheses and no quotes, slashes or stars, then the lexer of the dialect reads the whole
statement, and ends outside of literals and comments with no parenthesis open. -/
theorem Node.run_toSql {n : Node} {sql : String} (h : n.toSql d = .ok sql)
    (raws : ∀ text ∈ n.raws, IsTame d text) : run d start sql.toList = some start := by
  obtain ⟨whole, text⟩ := toList_of_toSql h
  have spellable (text : String) (tame : IsTame d text) :
      Draft.Spellable (fun a _ => Draft.Passes d a) text :=
    ⟨.of_lexeme (passes_of_isTame tame), .of_lexeme (passes_of_isTame tame.upper)⟩
  have passes : Draft.Passes d (n.draft d .statement) :=
    n.draft_kept (Draft.Passes.congruence d) d (fun b _ => .slot b)
      (fun text htext => spellable text (raws text htext)) (fun _ _ => nofun) .statement
  rw [text]
  exact passes whole 0

/-- A text that ends in a backslash, and a comment that would close itself. -/
theorem Node.run_toSql_of_call :
    let call := of (.call ⟨.named "length", [of (.quoted (.text "it's \\"))], false, none⟩)
    let n := of (.select (.single { projections := [call], comments := ["*/ ("] } {}))
    n.toSql .mysql = .ok "SELECT length('it''s \\\\') /* ( */" ∧
      (∀ text ∈ n.raws, IsTame .mysql text) ∧
      run .mysql start "SELECT length('it''s \\\\') /* ( */".toList = some start := by
  intro call n
  have written : n.toSql .mysql = .ok "SELECT length('it''s \\\\') /* ( */" := by decide +kernel
  have raws : ∀ text ∈ n.raws, IsTame .mysql text := by
    intro text htext
    obtain rfl : text = "length" := List.mem_singleton.mp htext
    exact ⟨rfl, by simp [Dialect.wildChars, Dialect.quotes]⟩
  exact ⟨written, raws, run_toSql written raws⟩

end SqlTree
