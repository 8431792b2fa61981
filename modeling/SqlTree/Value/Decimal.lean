import SqlTree.Text.Numeral

/-!
# SqlTree — Value — shortest decimals

A binary floating-point number of sixty-four bits is shown by the shortest decimal that reads back
to it.  The number is a fraction, and the reals that round to it form an interval: from halfway to
the number below to halfway to the number above, with the ends where the significand is even.  Of
the decimals in the interval those with the fewest digits are taken, of these the nearest to the
number, and of two that are equally near the upper one.

All of it is exact arithmetic on natural numbers.
-/

namespace SqlTree.Value

/-- The reals that round to one positive binary number: `least / scale` to `most / scale`, around
the number itself, `middle / scale`. -/
structure Interval where
  least : Nat
  middle : Nat
  most : Nat
  scale : Nat
  /-- Whether the two ends belong to it. -/
  closed : Bool

/-- The interval around `significand · 2 ^ (power - 1074)`.  Where the gaps are not even, as at a
power of two, the number below is half as far away as the number above. -/
def Interval.around (significand power : Nat) (evenGaps : Bool) : Interval where
  least := (4 * significand - if evenGaps then 2 else 1) <<< power
  middle := (4 * significand) <<< power
  most := (4 * significand + 2) <<< power
  scale := 1 <<< 1076
  closed := significand % 2 == 0

/-- The eleven bits of the exponent of a word. -/
def exponentBits (word : UInt64) : Nat := ((word >>> 52) &&& 0x7FF).toNat

/-- The fifty-two bits of the fraction. -/
def fractionBits (word : UInt64) : Nat := (word &&& 0xFFFFFFFFFFFFF).toNat

def isNegative (word : UInt64) : Bool := word >>> 63 == 1

def isNaN (word : UInt64) : Bool := exponentBits word == 2047 && fractionBits word != 0

def isInfinite (word : UInt64) : Bool := exponentBits word == 2047 && fractionBits word == 0

def isZero (word : UInt64) : Bool := exponentBits word == 0 && fractionBits word == 0

/-- The interval of a finite word other than zero, whatever its sign. -/
def Interval.ofWord (word : UInt64) : Interval :=
  match exponentBits word with
  | 0 => .around (fractionBits word) 0 true
  | e + 1 => .around (1 <<< 52 + fractionBits word) e (fractionBits word != 0 || e == 0)

/-- A positive decimal: `digits · 10 ^ power`. -/
structure Decimal where
  digits : Nat
  power : Int
  deriving DecidableEq, Repr

/-- A decimal as a numerator over the scale of an interval, and the factor by which the interval
itself has to grow for that. -/
def Decimal.scaled (x : Decimal) (scale : Nat) : Nat × Nat :=
  (x.digits * scale * Nat.pow 10 x.power.toNat, Nat.pow 10 (-x.power).toNat)

/-- The decimal lies in the interval. -/
def Interval.holds (i : Interval) (x : Decimal) : Bool :=
  let (place, factor) := x.scaled i.scale
  let (least, most) := (i.least * factor, i.most * factor)
  (least < place && place < most) || (i.closed && (place == least || place == most))

/-- The number of digits before the decimal point, negative where zeros follow the point: the least
`k` such that the middle of the interval is below `10 ^ k`. -/
def Interval.magnitude (i : Interval) : Int :=
  if i.scale ≤ i.middle then (Text.numeral (i.middle / i.scale)).length
  else 1 - ((Text.numeral ((i.scale - 1) / i.middle)).length : Int)

/-- The two multiples of `10 ^ power` on either side of the middle, the nearer one first; the upper
one is first where they are equally near. -/
def Interval.neighbours (i : Interval) (power : Int) : List Decimal :=
  let unit := i.scale * Nat.pow 10 power.toNat
  let middle := i.middle * Nat.pow 10 (-power).toNat
  let below : Decimal := ⟨middle / unit, power⟩
  let above : Decimal := ⟨middle / unit + 1, power⟩
  if 2 * (middle % unit) < unit then [below, above] else [above, below]

/-- The decimal with the fewest digits among those of the interval, and the nearest of them. The
search tries one digit, then two, up to seventeen; these always suffice, and the middle itself
stands where they would not. -/
def Interval.shortest (i : Interval) : Decimal :=
  let found := (List.range 17).findSome? fun (n : Nat) =>
    (i.neighbours (i.magnitude - 1 - n)).find? i.holds
  found.getD ⟨i.middle * Nat.pow 5 1076, -1076⟩

/-! ### Notation -/

/-- The significant digits of a decimal, and where its point stands: after so many of them. -/
def Decimal.significant (x : Decimal) : List Char × Int :=
  let digits := Text.numeral x.digits
  ((digits.reverse.dropWhile (· == '0')).reverse, digits.length + x.power)

/-- Positional notation, with at least one digit on either side of the point. -/
def positional (digits : List Char) (point : Int) : List Char :=
  if point ≤ 0 then '0' :: '.' :: List.replicate (-point).toNat '0' ++ digits
  else if digits.length ≤ point.toNat then
    digits ++ List.replicate (point.toNat - digits.length) '0' ++ ['.', '0']
  else digits.take point.toNat ++ '.' :: digits.drop point.toNat

/-- Exponent notation, with one digit before the point and no point after a single digit. -/
def scientific (digits : List Char) (point : Int) : List Char :=
  digits.take 1 ++ (if digits.length ≤ 1 then [] else '.' :: digits.drop 1) ++
    'e' :: Text.signed (point - 1)

/-- Numbers from `10 ^ -4` and below `10 ^ 16` are written positionally, others with an exponent. -/
def Decimal.spelled (x : Decimal) : List Char :=
  let (digits, point) := x.significant
  if -4 < point && point ≤ 16 then positional digits point else scientific digits point

/-- The text of a finite word: zero keeps its sign. -/
def finiteText (word : UInt64) : List Char :=
  let magnitude := if isZero word then ['0', '.', '0'] else (Interval.ofWord word).shortest.spelled
  if isNegative word then '-' :: magnitude else magnitude

/-! ### Single precision -/

/-- A word of thirty-two bits widened to the same number in sixty-four.  A number without a leading
one gets one, and what is not a number stays so and becomes quiet. -/
def widen (single : UInt32) : UInt64 :=
  let sign := (single >>> 31).toUInt64 <<< 63
  let exponent := ((single >>> 23) &&& 0xFF).toNat
  let fraction := (single &&& 0x7FFFFF).toNat
  let magnitude :=
    if exponent == 255 then
      0x7FF <<< 52 + fraction <<< 29 ||| (if fraction == 0 then 0 else 1 <<< 51)
    else if exponent == 0 then
      if fraction == 0 then 0
      else (fraction.log2 + 874) <<< 52 + (fraction <<< (52 - fraction.log2) - 1 <<< 52)
    else (exponent + 896) <<< 52 + fraction <<< 29
  sign ||| UInt64.ofNat magnitude

end SqlTree.Value
