import SqlTree.Proofs.Lexing.Lexer

/-!
# SqlTree — Proofs — values pass the lexer

Numbers, dates, identifiers of sixteen bytes and hexadecimal digits are made of quiet characters
only, so that the quotes around them are the only ones; texts are quoted with care.  So every value
passes the lexer of its dialect as a literal (`Lexer.passes_quoteValue`).
-/

namespace SqlTree

/-! ### Quiet texts -/

namespace Text

theorem quiet_zeros (n : Nat) : Quiet (List.replicate n '0') := fun c hc => by
  rw [List.eq_of_mem_replicate hc]
  rfl

theorem quiet_padded (width n : Nat) : Quiet (padded width n) :=
  quiet_append.mpr ⟨quiet_zeros _, quiet_numeral n⟩

theorem quiet_signed (n : Int) : Quiet (signed n) := by
  cases n with
  | ofNat n => exact quiet_numeral n
  | negSucc n => exact quiet_cons.mpr ⟨rfl, quiet_numeral (n + 1)⟩

theorem isQuiet_hexDigit {n : Nat} (h : n < 16) : isQuiet (hexDigit n) = true := by
  have all : ∀ n : Fin 16, isQuiet (hexDigit n) = true := by decide
  exact all ⟨n, h⟩

theorem quiet_hexDigits (width n : Nat) : Quiet (hexDigits width n) := by
  induction width generalizing n with
  | zero => exact quiet_nil
  | succ width ih =>
      have last : isQuiet (hexDigit (n % 16)) = true := isQuiet_hexDigit (Nat.mod_lt n (by decide))
      exact quiet_append.mpr ⟨ih (n / 16), quiet_cons.mpr ⟨last, quiet_nil⟩⟩

theorem quiet_hexBytes (bytes : List UInt8) : Quiet (hexBytes bytes) := fun c hc => by
  obtain ⟨b, -, hc⟩ := List.mem_flatMap.mp hc
  exact quiet_hexDigits 2 b.toNat c hc

end Text

section
open Text

theorem quiet_yearText (year : Int) : Quiet (yearText year) := by
  unfold yearText
  split_ifs
  · exact quiet_padded _ _
  · exact quiet_cons.mpr ⟨rfl, quiet_padded _ _⟩
  · exact quiet_cons.mpr ⟨rfl, quiet_padded _ _⟩

theorem quiet_date (t : Date) : Quiet t.text := by
  simp [Date.text, quiet_yearText, quiet_padded, isQuiet, loudChars]

theorem quiet_fractionText (nanosecond : Nat) : Quiet (fractionText nanosecond) := by
  unfold fractionText
  split_ifs
  · exact quiet_nil
  · exact quiet_cons.mpr ⟨rfl, quiet_padded _ _⟩
  · exact quiet_cons.mpr ⟨rfl, quiet_padded _ _⟩
  · exact quiet_cons.mpr ⟨rfl, quiet_padded _ _⟩

theorem quiet_moment (m : Moment) : Quiet (m.text ' ') := by
  simp [Moment.text, Moment.timeText, quiet_date, quiet_padded, quiet_fractionText, isQuiet,
    loudChars]

theorem quiet_uuid (bits : BitVec 128) : Quiet (uuidText bits) := by
  have digits := quiet_hexDigits 32 bits.toNat
  simp [uuidText, digits.take, digits.drop, (digits.drop _).take, isQuiet, loudChars]

namespace Value

theorem quiet_positional {digits : List Char} (h : Quiet digits) (point : Int) :
    Quiet (positional digits point) := by
  unfold positional
  split_ifs
  · simp [quiet_zeros, h, isQuiet, loudChars]
  · simp [quiet_zeros, h, isQuiet, loudChars]
  · simp [h.take, h.drop, isQuiet, loudChars]

theorem quiet_scientific {digits : List Char} (h : Quiet digits) (point : Int) :
    Quiet (scientific digits point) := by
  have rest : Quiet (if digits.length ≤ 1 then [] else '.' :: digits.drop 1) := by
    split
    · exact quiet_nil
    · exact quiet_cons.mpr ⟨rfl, h.drop 1⟩
  have exponent : Quiet ('e' :: signed (point - 1)) := quiet_cons.mpr ⟨rfl, quiet_signed _⟩
  exact quiet_append.mpr ⟨quiet_append.mpr ⟨h.take 1, rest⟩, exponent⟩

theorem quiet_spelled (x : Decimal) : Quiet x.spelled := by
  have digits : Quiet x.significant.1 := fun c hc =>
    quiet_numeral x.digits c (List.mem_reverse.mp
      ((List.dropWhile_sublist _).subset (List.mem_reverse.mp hc)))
  simp only [Decimal.spelled]
  split
  · exact quiet_positional digits _
  · exact quiet_scientific digits _

theorem quiet_finiteText (word : UInt64) : Quiet (finiteText word) := by
  have magnitude : Quiet (if isZero word then ['0', '.', '0']
      else (Interval.ofWord word).shortest.spelled) := by
    split
    · simp [isQuiet, loudChars]
    · exact quiet_spelled _
  rw [finiteText]
  by_cases negative : isNegative word = true
  · rw [if_pos negative]
    exact quiet_cons.mpr ⟨rfl, magnitude⟩
  · rw [if_neg negative]
    exact magnitude

end Value

end

/-! ### Literals -/

namespace Lexer

variable (d : Dialect)

theorem passes_plainString {cs : List Char} (h : Quiet cs) :
    Passes d (Dialect.plainString cs).toList := by
  rw [Dialect.plainString, String.toList_ofList]
  exact passes_quoted (run_quoted_of_quiet (quote_mem_quotes d) h)

theorem passes_quoteBytes (bytes : List UInt8) : Passes d (d.quoteBytes bytes).toList := by
  have digits := run_quoted_of_quiet (quote_mem_quotes d) (Text.quiet_hexBytes bytes)
  rw [Dialect.quoteBytes, String.toList_ofList]
  cases d with
  | postgresql =>
      -- the backslash stands for itself
      have backslash (depth : Nat) : step .postgresql ⟨.quoted '\'', depth⟩ '\\' =
          some ⟨.quoted '\'', depth⟩ := rfl
      have marker (depth : Nat) : step .postgresql ⟨.quoted '\'', depth⟩ 'x' =
          some ⟨.quoted '\'', depth⟩ := rfl
      have inside (depth : Nat) : run .postgresql ⟨.quoted '\'', depth⟩
          ('\\' :: 'x' :: Text.hexBytes bytes) = some ⟨.quoted '\'', depth⟩ := by
        rw [run_cons_of_step (backslash depth), run_cons_of_step (marker depth), digits depth]
      exact passes_quoted inside
  | _ => exact .cons (step_code_of_isQuiet rfl) (passes_quoted digits)

theorem passes_quoteFloat (bits : UInt64) : Passes d (d.quoteFloat bits).toList := by
  unfold Dialect.quoteFloat
  split_ifs
  · exact passes_quoteString d _
  · exact passes_quoteString d _
  · exact passes_quoteString d _
  · rw [String.toList_ofList]
    exact passes_of_quiet (Value.quiet_finiteText bits)

/-- **Every value passes** as a literal. -/
theorem passes_quoteValue (v : Value) : Passes d (d.quoteValue v).toList := by
  cases v with
  | null => exact passes_of_isWording (isWording_ofList rfl)
  | bool b => exact passes_of_isWording (isWording_boolText d b)
  | integer n =>
      rw [Dialect.quoteValue, String.toList_ofList]
      exact passes_of_quiet (Text.quiet_signed n.toInt)
  | float bits => exact passes_quoteFloat d bits
  | text s => exact passes_quoteString d s
  | bytes b => exact passes_quoteBytes d b
  | date t => exact passes_plainString d (quiet_date t)
  | moment m => exact passes_plainString d (quiet_moment m)
  | uuid bits => exact passes_plainString d (quiet_uuid bits)

end Lexer

end SqlTree
