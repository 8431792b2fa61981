import SqlTree.Text.Numeral

/-!
# SqlTree — Value — dates and times

A date is written year, month and day, and a time of day hour, minute and second.  Years of four
digits stand bare; earlier and later ones carry a sign.  The fraction of a second has as many
groups of three digits as it needs.  A leap second is the sixtieth of its minute: its nanoseconds
count on from those of the second before.
-/

namespace SqlTree

structure Date where
  year : Int
  month : Nat
  day : Nat
  deriving DecidableEq, Repr

/-- A date with a time of day. -/
structure Moment where
  date : Date
  hour : Nat
  minute : Nat
  second : Nat
  nanosecond : Nat
  deriving DecidableEq, Repr

open Text

/-- A year from 0 to 9999 has four digits; any other a sign and at least four. -/
def yearText (year : Int) : List Char :=
  if 0 ≤ year ∧ year ≤ 9999 then padded 4 year.toNat
  else (if year < 0 then '-' else '+') :: padded 4 year.natAbs

def Date.text (d : Date) : List Char :=
  yearText d.year ++ '-' :: padded 2 d.month ++ '-' :: padded 2 d.day

/-- The fraction of a second after the point, in the fewest groups of three digits that say all of
it. -/
def fractionText (nanosecond : Nat) : List Char :=
  if nanosecond = 0 then []
  else if nanosecond % 1000000 = 0 then '.' :: padded 3 (nanosecond / 1000000)
  else if nanosecond % 1000 = 0 then '.' :: padded 6 (nanosecond / 1000)
  else '.' :: padded 9 nanosecond

/-- The nanoseconds of a whole second. -/
def secondLength : Nat := 1000000000

def Moment.timeText (m : Moment) : List Char :=
  let (second, nanosecond) :=
    if secondLength ≤ m.nanosecond then (m.second + 1, m.nanosecond - secondLength)
    else (m.second, m.nanosecond)
  padded 2 m.hour ++ ':' :: padded 2 m.minute ++ ':' :: padded 2 second ++ fractionText nanosecond

/-- Date and time with the given character between them. -/
def Moment.text (between : Char) (m : Moment) : List Char :=
  m.date.text ++ between :: m.timeText

end SqlTree
