import SqlTree.Text.Escaped
import SqlTree.Value.Basic

/-!
# SqlTree — Value — labels

A value as it is shown to a person who looks at a tree: the name of its type and, in parentheses,
what it holds.
-/

namespace SqlTree.Value

open Text

/-- A number as a label shows it, with words for what is not finite. -/
def floatLabel (bits : UInt64) : List Char :=
  if isNaN bits then ['N', 'a', 'N']
  else if isInfinite bits then
    if isNegative bits then ['-', 'i', 'n', 'f'] else ['i', 'n', 'f']
  else finiteText bits

/-- Bytes in decimal, between brackets. -/
def bytesLabel (bytes : List UInt8) : List Char :=
  '[' :: [',', ' '].intercalate (bytes.map fun b => numeral b.toNat) ++ [']']

def label : Value → String
  | null => "Null"
  | bool b => "Bool(" ++ (if b then "true" else "false") ++ ")"
  | integer n => "Integer(" ++ String.ofList (signed n.toInt) ++ ")"
  | float bits => "Float(" ++ String.ofList (floatLabel bits) ++ ")"
  | text s => "Text(" ++ String.ofList (escaped s.toList) ++ ")"
  | bytes b => "Bytes(" ++ String.ofList (bytesLabel b) ++ ")"
  | date d => "Date(" ++ String.ofList d.text ++ ")"
  | moment m => "DateTime(" ++ String.ofList (m.text 'T') ++ ")"
  | uuid bits => "Uuid(" ++ String.ofList (uuidText bits) ++ ")"

end SqlTree.Value
