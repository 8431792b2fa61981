import SqlTree.Sql.Query

/-!
# SqlTree — Sql — collectors

A query is collected call by call.  The text is collected without placeholders; of each slot the
collector keeps what belongs in it and where it is, as a number of bytes.  Only at the end, when the
style is known, are the placeholders put in their places.
-/

namespace SqlTree

structure Collector where
  text : String := ""
  /-- The bytes of the text before each slot. -/
  places : List Nat := []
  binds : List Bind := []
  deriving DecidableEq

namespace Collector

/-! ### Collecting -/

inductive Call where
  | pushText (text : String)
  | pushChar (char : Char)
  | addBind (b : Bind)
  deriving DecidableEq

def pushText (text : String) (c : Collector) : Collector := { c with text := c.text ++ text }

def pushChar (char : Char) (c : Collector) : Collector := { c with text := c.text.push char }

/-- A slot at the end of the text so far. -/
def addBind (b : Bind) (c : Collector) : Collector :=
  { c with places := c.places ++ [c.text.utf8ByteSize], binds := c.binds ++ [b] }

def Call.after : Call → Collector → Collector
  | pushText text => Collector.pushText text
  | pushChar char => Collector.pushChar char
  | addBind b => Collector.addBind b

def run (calls : List Call) (c : Collector) : Collector :=
  calls.foldl (fun c call => call.after c) c

/-! ### Finishing -/

/-- The text between two places.  There is none if a place is beyond the end or inside a character,
or if the places are in the wrong order. -/
def slice? (text : String) (start stop : Nat) : Option String := do
  let start ← text.pos? ⟨start⟩
  let stop ← text.pos? ⟨stop⟩
  let part ← text.slice? start stop
  return part.copy

/-- The text from a place on, with a numbered placeholder for each slot. -/
def splice (style : PlaceholderStyle) (text : String) :
    (index last : Nat) → List (Nat × Bind) → Option String
  | _, last, [] => slice? text last text.utf8ByteSize
  | index, last, (place, b) :: slots => do
    let before ← slice? text last place
    let after ← splice style text (index + 1) place slots
    return before ++ style.placeholder index b.name? ++ after

/-- The query with placeholders in their places, if these are places of the text. -/
def finish (style : PlaceholderStyle) (c : Collector) : Option Query := do
  let sql ← splice style c.text 1 0 (c.places.zip c.binds)
  return ⟨sql, c.binds, style⟩

end Collector

/-- The call that collects a lexeme. -/
def Lexeme.call (d : Dialect) : Lexeme → Collector.Call
  | slot b => .addBind b
  | l => .pushText (l.text d)

end SqlTree
