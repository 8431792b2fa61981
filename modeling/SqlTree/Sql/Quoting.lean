import SqlTree.Value.Basic

/-!
# SqlTree — Sql — quoting

Identifiers and values as literals of a dialect.  Whatever they hold, the literal ends where it was
meant to end: a character that would end it, or change how the next one is read, is written twice.
-/

namespace SqlTree

/-- The text with every character of that sort written twice. -/
def doubled (special : Char → Bool) : List Char → List Char
  | [] => []
  | c :: cs => if special c then c :: c :: doubled special cs else c :: doubled special cs

/-- The text between two quotes, with the special characters in it written twice. -/
def enclosed (quote : Char) (special : Char → Bool) (cs : List Char) : List Char :=
  quote :: doubled special cs ++ [quote]

namespace Dialect

/-- The character around an identifier. -/
def identifierQuote : Dialect → Char
  | mysql => '\x60'
  | generic | postgresql | sqlite => '"'

/-- Whether a backslash in a string takes away the meaning of the next character. -/
def escapesBackslash : Dialect → Bool
  | mysql => true
  | generic | postgresql | sqlite => false

def quoteIdentifier (d : Dialect) (name : String) : String :=
  String.ofList (enclosed d.identifierQuote (· == d.identifierQuote) name.toList)

/-- The characters of a string literal that do not stand for themselves. -/
def isSpecial (d : Dialect) (c : Char) : Bool := c == '\'' || (d.escapesBackslash && c == '\\')

def quoteString (d : Dialect) (text : String) : String :=
  String.ofList (enclosed '\'' d.isSpecial text.toList)

/-- The truth values; one dialect has numbers in their place. -/
def boolText : Dialect → Bool → String
  | sqlite, true => "1"
  | sqlite, false => "0"
  | generic, true | postgresql, true | mysql, true => "TRUE"
  | generic, false | postgresql, false | mysql, false => "FALSE"

/-- What stands before the hexadecimal digits of bytes. -/
def bytesOpening : Dialect → List Char
  | postgresql => ['\'', '\\', 'x']
  | generic | mysql | sqlite => ['X', '\'']

def quoteBytes (d : Dialect) (bytes : List UInt8) : String :=
  String.ofList (d.bytesOpening ++ Text.hexBytes bytes ++ ['\''])

/-- A floating-point number; what is not finite is a string. -/
def quoteFloat (d : Dialect) (bits : UInt64) : String :=
  if Value.isNaN bits then d.quoteString "NaN"
  else if Value.isInfinite bits then
    d.quoteString (if Value.isNegative bits then "-Infinity" else "Infinity")
  else String.ofList (Value.finiteText bits)

/-- The text in single quotes as it stands. -/
def plainString (cs : List Char) : String := String.ofList ('\'' :: cs ++ ['\''])

def quoteValue (d : Dialect) : Value → String
  | .null => "NULL"
  | .bool b => d.boolText b
  | .integer n => String.ofList (Text.signed n.toInt)
  | .float bits => d.quoteFloat bits
  | .text s => d.quoteString s
  | .bytes b => d.quoteBytes b
  | .date t => plainString t.text
  | .moment m => plainString (m.text ' ')
  | .uuid bits => plainString (uuidText bits)

end Dialect

end SqlTree
