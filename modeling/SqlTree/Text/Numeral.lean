/-!
# SqlTree — Text — decimal numerals

Numbers in base ten, and numbers padded with zeros to a least width.
-/

namespace SqlTree.Text

/-- The decimal digits of a number, without leading zeros. -/
def numeral (n : Nat) : List Char := Nat.toDigits 10 n

/-- The decimal digits of a number, with zeros in front up to the width. -/
def padded (width n : Nat) : List Char :=
  List.replicate (width - (numeral n).length) '0' ++ numeral n

/-- The decimal digits of an integer, after a minus sign where it is negative. -/
def signed : Int → List Char
  | .ofNat n => numeral n
  | .negSucc n => '-' :: numeral (n + 1)

end SqlTree.Text
