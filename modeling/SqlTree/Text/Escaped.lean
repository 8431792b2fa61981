import SqlTree.Text.Blank
import SqlTree.Text.Combining
import SqlTree.Text.Unassigned

/-!
# SqlTree — Text — escapes

A text shown between double quotes.  The quote, the backslash and the four common control
characters have a letter of their own; any other character that would not be seen by itself is
written by its code point: controls, blanks other than the space, format characters, fillers that
have no shape, code points for private use or without a character, and marks that combine with the
character before them.
-/

namespace SqlTree.Text

/-- Controls, blanks other than the space, format characters and code points for private use. -/
def invisibleRanges : List (Nat × Nat) :=
  [(0x0, 0x1F), (0x7F, 0xA0), (0xAD, 0xAD), (0x600, 0x605), (0x61C, 0x61C), (0x6DD, 0x6DD),
   (0x70F, 0x70F), (0x890, 0x891), (0x8E2, 0x8E2), (0x1680, 0x1680), (0x180E, 0x180E),
   (0x2000, 0x200F), (0x2028, 0x202F), (0x205F, 0x2064), (0x2066, 0x206F), (0x3000, 0x3000),
   (0xE000, 0xF8FF), (0xFEFF, 0xFEFF), (0xFFF9, 0xFFFB), (0x110BD, 0x110BD), (0x110CD, 0x110CD),
   (0x13430, 0x1343F), (0x1BCA0, 0x1BCA3), (0x1D173, 0x1D17A), (0xE0001, 0xE0001),
   (0xE0020, 0xE007F), (0xF0000, 0xFFFFD), (0x100000, 0x10FFFD)]

/-- What may be left out of sight where it has no effect: the Unicode property
`Default_Ignorable_Code_Point`.  Besides format characters and marks it holds the fillers of
Hangul. -/
def ignorableRanges : List (Nat × Nat) :=
  [(0xAD, 0xAD), (0x34F, 0x34F), (0x61C, 0x61C), (0x115F, 0x1160), (0x17B4, 0x17B5),
   (0x180B, 0x180F), (0x200B, 0x200F), (0x202A, 0x202E), (0x2060, 0x206F), (0x3164, 0x3164),
   (0xFE00, 0xFE0F), (0xFEFF, 0xFEFF), (0xFFA0, 0xFFA0), (0xFFF0, 0xFFF8), (0x1BCA0, 0x1BCA3),
   (0x1D173, 0x1D17A), (0xE0000, 0xE0FFF)]

/-- A character that is shown by its code point. -/
def isUnseen (c : Char) : Bool :=
  [invisibleRanges, ignorableRanges, combiningRanges, unassignedRanges].any (inRanges · c.toNat)

/-- The digits of a code point in base sixteen, without leading zeros. -/
def codePoint (c : Char) : List Char := Nat.toDigits 16 c.toNat

/-- One character as it stands between the quotes. -/
def escapeChar : Char → List Char
  | '"' => ['\\', '"']
  | '\\' => ['\\', '\\']
  | '\n' => ['\\', 'n']
  | '\r' => ['\\', 'r']
  | '\t' => ['\\', 't']
  | '\x00' => ['\\', '0']
  | c => if isUnseen c then ['\\', 'u', '\x7b'] ++ codePoint c ++ ['\x7d'] else [c]

/-- The text between double quotes. -/
def escaped (cs : List Char) : List Char := '"' :: cs.flatMap escapeChar ++ ['"']

end SqlTree.Text
