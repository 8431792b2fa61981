import Mathlib.Logic.Function.Basic
import SqlTree.Sql.Quoting

/-!
# SqlTree — Proofs — quoted texts are read back

A dialect reads a quoted text from its opening quote on: a quote written twice stands for one, any
other quote ends the text, and in a string of MySQL a backslash takes the next character with it.
Bytes are read as pairs of hexadecimal digits between their frame.  The readers know nothing of how
quoting is done.

* `scanQuoted_enclosed`: whatever the text and whatever follows it, reading takes what quoting wrote
  and no more.
* `Dialect.reads_quoted`: strings, identifiers and bytes of every dialect are read back, and so no
  two of them are written alike.
-/

namespace SqlTree

/-! ### Readers -/

/-- What a backslash and the character after it stand for in a string. -/
def unescaped : Char → List Char
  | '0' => ['\x00']
  | 'b' => ['\x08']
  | 't' => ['\t']
  | 'n' => ['\n']
  | 'r' => ['\r']
  | 'Z' => ['\x1a']
  | '%' => ['\\', '%']
  | '_' => ['\\', '_']
  | c => [c]

/-- Characters put before what was read, with the same rest. -/
def readBefore (cs : List Char) (read : List Char × List Char) : List Char × List Char :=
  (cs ++ read.1, read.2)

/-- The inside of a quoted text up to the quote that ends it, and what follows that quote. -/
def scanInside (quote : Char) (escapes : Bool) : List Char → Option (List Char × List Char)
  | [] => none
  | [c] => if c = quote then some ([], []) else none
  | c :: next :: cs =>
    if c = quote then
      if next = quote then (scanInside quote escapes cs).map (readBefore [quote])
      else some ([], next :: cs)
    else if escapes ∧ c = '\\' then (scanInside quote escapes cs).map (readBefore (unescaped next))
    else (scanInside quote escapes (next :: cs)).map (readBefore [c])

/-- A quoted text and what follows it. -/
def scanQuoted (quote : Char) (escapes : Bool) : List Char → Option (List Char × List Char)
  | [] => none
  | c :: cs => if c = quote then scanInside quote escapes cs else none

def hexValue? (c : Char) : Option Nat :=
  if '0' ≤ c ∧ c ≤ '9' then some (c.toNat - '0'.toNat)
  else if 'a' ≤ c ∧ c ≤ 'f' then some (c.toNat - 'a'.toNat + 10)
  else if 'A' ≤ c ∧ c ≤ 'F' then some (c.toNat - 'A'.toNat + 10)
  else none

/-- Bytes in pairs of digits up to the quote that ends them, and what follows that quote. -/
def scanHex : List Char → Option (List UInt8 × List Char)
  | '\'' :: rest => some ([], rest)
  | high :: low :: cs =>
    match hexValue? high, hexValue? low with
    | some h, some l => (scanHex cs).map fun read => (UInt8.ofNat (16 * h + l) :: read.1, read.2)
    | _, _ => none
  | _ => none

namespace Dialect

/-- A string literal, its text, and what follows it. -/
def scanString : Dialect → List Char → Option (List Char × List Char)
  | mysql => scanQuoted '\'' true
  | generic | postgresql | sqlite => scanQuoted '\'' false

/-- A quoted identifier, its name, and what follows it. -/
def scanName : Dialect → List Char → Option (List Char × List Char)
  | mysql => scanQuoted '\x60' false
  | generic | postgresql | sqlite => scanQuoted '"' false

/-- The bytes of a literal, and what follows it. -/
def scanBytes : Dialect → List Char → Option (List UInt8 × List Char)
  | postgresql, '\'' :: '\\' :: 'x' :: cs => scanHex cs
  | generic, 'X' :: '\'' :: cs | mysql, 'X' :: '\'' :: cs | sqlite, 'X' :: '\'' :: cs => scanHex cs
  | _, _ => none

end Dialect

/-! ### Quoted texts -/

section
variable {quote : Char} {escapes : Bool}

theorem scanInside_of_ne {c : Char} (hquote : c ≠ quote) (hescape : ¬(escapes ∧ c = '\\'))
    {cs : List Char} (hcs : cs ≠ []) :
    scanInside quote escapes (c :: cs) = (scanInside quote escapes cs).map (readBefore [c]) := by
  obtain ⟨next, cs, rfl⟩ := List.exists_cons_of_ne_nil hcs
  rw [scanInside, if_neg hquote, if_neg hescape]

theorem scanInside_closing {r : List Char} (hr : r.head? ≠ some quote) :
    scanInside quote escapes (quote :: r) = some ([], r) := by
  cases r with
  | nil => rw [scanInside, if_pos rfl]
  | cons next r =>
      have hnext : next ≠ quote := fun h => hr (congrArg some h)
      rw [scanInside, if_pos rfl, if_neg hnext]

/-- The special characters are the quote and, where it escapes, the backslash. -/
structure Guards (quote : Char) (escapes : Bool) (special : Char → Bool) : Prop where
  of_quote : special quote = true
  of_backslash : escapes = true → special '\\' = true
  only (c : Char) : special c = true → c = quote ∨ escapes = true ∧ c = '\\'

variable {special : Char → Bool} (h : Guards quote escapes special)
include h

theorem scanInside_doubled (s : List Char) {r : List Char} (hr : r.head? ≠ some quote) :
    scanInside quote escapes (doubled special s ++ quote :: r) = some (s, r) := by
  induction s with
  | nil => exact scanInside_closing hr
  | cons c s ih =>
      by_cases hc : special c = true
      · rw [doubled, if_pos hc, List.cons_append, List.cons_append, scanInside]
        by_cases hquote : c = quote
        · rw [if_pos hquote, if_pos hquote, ih, hquote]
          rfl
        -- a special character other than the quote is the backslash
        · have hescape := (h.only c hc).resolve_left hquote
          rw [if_neg hquote, if_pos hescape, ih, hescape.2]
          rfl
      · have hquote : c ≠ quote := by
          rintro rfl
          exact hc h.of_quote
        have hescape : ¬(escapes = true ∧ c = '\\') := by
          rintro ⟨hescapes, rfl⟩
          exact hc (h.of_backslash hescapes)
        rw [doubled, if_neg hc, List.cons_append, scanInside_of_ne hquote hescape (by simp), ih]
        rfl

/-- **A quoted text is read back**: with the special characters written twice, reading takes what
was written, whatever follows it, and finds the text. -/
theorem scanQuoted_enclosed (s : List Char) {r : List Char} (hr : r.head? ≠ some quote) :
    scanQuoted quote escapes (enclosed quote special s ++ r) = some (s, r) := by
  rw [enclosed, List.cons_append, List.cons_append, List.append_assoc, List.singleton_append,
    scanQuoted, if_pos rfl, scanInside_doubled h s hr]

end

/-! ### Bytes -/

theorem hexValue?_hexDigit {n : Nat} (h : n < 16) : hexValue? (Text.hexDigit n) = some n := by
  have all : ∀ n : Fin 16, hexValue? (Text.hexDigit n) = some n.val := by decide
  exact all ⟨n, h⟩

/-- No digit is taken for the quote that ends the digits. -/
theorem hexDigit_ne_quote {n : Nat} (h : n < 16) : Text.hexDigit n ≠ '\'' := by
  have all : ∀ n : Fin 16, Text.hexDigit n ≠ '\'' := by decide
  exact all ⟨n, h⟩

theorem scanHex_hexBytes (bytes : List UInt8) (r : List Char) :
    scanHex (Text.hexBytes bytes ++ '\'' :: r) = some (bytes, r) := by
  induction bytes with
  | nil => rfl
  | cons b bytes ih =>
      have hb : b.toNat < 256 := b.toNat_lt
      have high : b.toNat / 16 % 16 < 16 := Nat.mod_lt _ (by decide)
      have low : b.toNat % 16 < 16 := Nat.mod_lt _ (by decide)
      have digits : Text.hexBytes (b :: bytes) ++ '\'' :: r =
          Text.hexDigit (b.toNat / 16 % 16) :: Text.hexDigit (b.toNat % 16) ::
            (Text.hexBytes bytes ++ '\'' :: r) := by
        simp [Text.hexBytes, Text.hexDigits]
      have value : 16 * (b.toNat / 16 % 16) + b.toNat % 16 = b.toNat := by omega
      rw [digits, scanHex, hexValue?_hexDigit high, hexValue?_hexDigit low]
      · simp only [ih, Option.map_some, value, UInt8.ofNat_toNat]
      · exact hexDigit_ne_quote high

/-! ### Every dialect -/

/-- Literals whose contents are read back are different where their contents are. -/
theorem injective_of_read {α β : Type} {write : α → String} {content : α → β}
    {read : List Char → Option (β × List Char)} (hcontent : content.Injective)
    (h : ∀ a, read (write a).toList = some (content a, [])) : write.Injective := by
  intro a b hab
  have same : some (content a, ([] : List Char)) = some (content b, []) := by rw [← h, ← h, hab]
  exact hcontent (by simpa using same)

namespace Dialect

variable (d : Dialect)

theorem guards_string : Guards '\'' d.escapesBackslash d.isSpecial where
  of_quote := by cases d <;> decide
  of_backslash h := by simp [isSpecial, h]
  only c h := by simpa only [isSpecial, Bool.or_eq_true, Bool.and_eq_true, beq_iff_eq] using h

theorem guards_name : Guards d.identifierQuote false (· == d.identifierQuote) where
  of_quote := beq_self_eq_true _
  of_backslash := nofun
  only _ h := .inl (beq_iff_eq.mp h)

theorem scanString_quoteString (s : String) {r : List Char} (hr : r.head? ≠ some '\'') :
    d.scanString ((d.quoteString s).toList ++ r) = some (s.toList, r) := by
  have read := scanQuoted_enclosed d.guards_string s.toList hr
  rw [quoteString, String.toList_ofList]
  cases d <;> exact read

theorem scanName_quoteIdentifier (s : String) {r : List Char}
    (hr : r.head? ≠ some d.identifierQuote) :
    d.scanName ((d.quoteIdentifier s).toList ++ r) = some (s.toList, r) := by
  have read := scanQuoted_enclosed d.guards_name s.toList hr
  rw [quoteIdentifier, String.toList_ofList]
  cases d <;> exact read

theorem scanBytes_quoteBytes (bytes : List UInt8) (r : List Char) :
    d.scanBytes ((d.quoteBytes bytes).toList ++ r) = some (bytes, r) := by
  have read := scanHex_hexBytes bytes r
  rw [quoteBytes, String.toList_ofList, List.append_assoc, List.append_assoc]
  cases d <;> exact read

/-- **Quoting is undone by reading.**  A string literal is read as its text and nothing of what
follows it, unless that begins with a quote; so is an identifier, with its own quote; and the bytes
of a literal are read back from their digits.  So all three are injective. -/
theorem reads_quoted :
    (∀ s r : String, r.toList.head? ≠ some '\'' →
      d.scanString (d.quoteString s ++ r).toList = some (s.toList, r.toList)) ∧
    (∀ s r : String, r.toList.head? ≠ some d.identifierQuote →
      d.scanName (d.quoteIdentifier s ++ r).toList = some (s.toList, r.toList)) ∧
    (∀ (bytes : List UInt8) (r : String),
      d.scanBytes (d.quoteBytes bytes ++ r).toList = some (bytes, r.toList)) ∧
    d.quoteString.Injective ∧ d.quoteIdentifier.Injective ∧ d.quoteBytes.Injective := by
  refine ⟨fun s r hr => ?_, fun s r hr => ?_, fun bytes r => ?_, ?_, ?_, ?_⟩
  · rw [String.toList_append, d.scanString_quoteString s hr]
  · rw [String.toList_append, d.scanName_quoteIdentifier s hr]
  · rw [String.toList_append, d.scanBytes_quoteBytes]
  · exact injective_of_read (fun _ _ => String.toList_injective) fun s => by
      simpa using d.scanString_quoteString s (r := []) (by simp)
  · exact injective_of_read (fun _ _ => String.toList_injective) fun s => by
      simpa using d.scanName_quoteIdentifier s (r := []) (by simp)
  · exact injective_of_read Function.injective_id fun b => by
      simpa using d.scanBytes_quoteBytes b []

/-- A string that ends in a quote and a backslash, and an identifier that is its own quote, before
other text of the statement. -/
theorem reads_quoted_before_text :
    ")".toList.head? ≠ some '\'' ∧ ".*".toList.head? ≠ some mysql.identifierQuote ∧
      mysql.scanString (mysql.quoteString "it's \\" ++ ")").toList =
        some ("it's \\".toList, ")".toList) ∧
      mysql.scanName (mysql.quoteIdentifier "\x60" ++ ".*").toList =
        some ("\x60".toList, ".*".toList) := by
  have string : ")".toList.head? ≠ some '\'' := by decide
  have name : ".*".toList.head? ≠ some mysql.identifierQuote := by decide
  exact ⟨string, name, (reads_quoted mysql).1 _ _ string, (reads_quoted mysql).2.1 _ _ name⟩

end Dialect

end SqlTree
