/-!
# SqlTree — Text — blanks

White space is the Unicode property `White_Space`: twenty-five characters in ten ranges.  A text is
trimmed of the blanks at its two ends and keeps those inside.
-/

namespace SqlTree.Text

/-- The closed ranges of white-space code points, ascending and apart. -/
def blankRanges : List (Nat × Nat) :=
  [(0x09, 0x0D), (0x20, 0x20), (0x85, 0x85), (0xA0, 0xA0), (0x1680, 0x1680), (0x2000, 0x200A),
   (0x2028, 0x2029), (0x202F, 0x202F), (0x205F, 0x205F), (0x3000, 0x3000)]

/-- A code point lies in one of the closed ranges. -/
def inRanges (ranges : List (Nat × Nat)) (code : Nat) : Bool :=
  ranges.any fun (low, high) => low ≤ code && code ≤ high

def isBlank (c : Char) : Bool := inRanges blankRanges c.toNat

/-- The text without the blanks at its two ends. -/
def trim (cs : List Char) : List Char :=
  ((cs.dropWhile isBlank).reverse.dropWhile isBlank).reverse

/-- Every ASCII capital as its small letter, and every other character as it is. -/
def lower (cs : List Char) : List Char := cs.map Char.toLower

/-- Every ASCII small letter as its capital, and every other character as it is. -/
def upper (cs : List Char) : List Char := cs.map Char.toUpper

end SqlTree.Text
