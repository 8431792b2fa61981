import SqlTree.Error
import SqlTree.Text.Hex
import SqlTree.Value.Calendar
import SqlTree.Value.Decimal

/-!
# SqlTree — Value — host values

The values that a query carries to the database.  A floating-point number is kept as its sixty-four
bits, so that two values are equal exactly when they are the same value of the same type.
-/

namespace SqlTree

inductive Value where
  | null
  | bool (b : Bool)
  | integer (n : Int64)
  | float (bits : UInt64)
  | text (s : String)
  | bytes (b : List UInt8)
  | date (d : Date)
  | moment (m : Moment)
  | uuid (bits : BitVec 128)
  deriving DecidableEq

namespace Value

/-- The name of the value's type. -/
def typeName : Value → String
  | null => "null"
  | bool _ => "bool"
  | integer _ => "integer"
  | float _ => "float"
  | text _ => "text"
  | bytes _ => "bytes"
  | date _ => "date"
  | moment _ => "datetime"
  | uuid _ => "uuid"

def isNull : Value → Bool
  | null => true
  | bool _ | integer _ | float _ | text _ | bytes _ | date _ | moment _ | uuid _ => false

/-- The text of a text value. -/
def text? : Value → Option String
  | text s => some s
  | null | bool _ | integer _ | float _ | bytes _ | date _ | moment _ | uuid _ => none

/-- An integer of any size as a value, if it fits in sixty-four bits with a sign. -/
def ofInt (n : Int) : Except Error Value :=
  if Int64.minValue.toInt ≤ n ∧ n ≤ Int64.maxValue.toInt then .ok (integer (Int64.ofInt n))
  else .error (.integerOutOfRange n)

/-- A number of single precision. -/
def ofSingle (bits : UInt32) : Value := float (widen bits)

end Value

/-- Groups of eight, four, four, four and twelve digits, with hyphens between. -/
def uuidText (bits : BitVec 128) : List Char :=
  let digits := Text.hexDigits 32 bits.toNat
  digits.take 8 ++ '-' :: (digits.drop 8).take 4 ++ '-' :: (digits.drop 12).take 4 ++
    '-' :: (digits.drop 16).take 4 ++ '-' :: digits.drop 20

end SqlTree
