import SqlTree.Clause.Call
import SqlTree.Clause.Window
import SqlTree.Sql.Quoting
import SqlTree.Sql.Spelling
import SqlTree.Statement.Select

/-!
# SqlTree — Proofs — words and signs

The words and signs of the language hold no quotes, no parentheses, and no slash that could begin a
comment (`isWording`).  So it is for every text of a dialect that stands between the operands of a
construct.
-/

namespace SqlTree

/-- The characters that mean something to a lexer, in a literal or outside of one. -/
def loudChars : List Char := ['\'', '"', '\x60', '\\', '(', ')', '/']

def isQuiet (c : Char) : Bool := !loudChars.contains c

/-- Nothing but quiet characters. -/
def Quiet (cs : List Char) : Prop := ∀ c ∈ cs, isQuiet c = true

@[simp] theorem quiet_nil : Quiet [] := by simp [Quiet]

@[simp] theorem quiet_cons {c : Char} {cs : List Char} :
    Quiet (c :: cs) ↔ isQuiet c = true ∧ Quiet cs := List.forall_mem_cons

@[simp] theorem quiet_append {as bs : List Char} : Quiet (as ++ bs) ↔ Quiet as ∧ Quiet bs :=
  List.forall_mem_append

theorem Quiet.take {cs : List Char} (h : Quiet cs) (n : Nat) : Quiet (cs.take n) := fun c hc =>
  h c (List.mem_of_mem_take hc)

theorem Quiet.drop {cs : List Char} (h : Quiet cs) (n : Nat) : Quiet (cs.drop n) := fun c hc =>
  h c (List.mem_of_mem_drop hc)

/-- Quiet characters, and slashes with a blank after them. -/
def isWording : List Char → Bool
  | '/' :: ' ' :: cs => isWording cs
  | c :: cs => isQuiet c && isWording cs
  | [] => true

theorem isWording_cons {c : Char} (hc : isQuiet c = true) (cs : List Char) :
    isWording (c :: cs) = isWording cs := by
  rw [isWording, hc, Bool.true_and]
  rintro _ rfl
  exact absurd hc (by decide)

theorem isWording_append {as bs : List Char} (ha : isWording as = true) (hb : isWording bs = true) :
    isWording (as ++ bs) = true := by
  fun_induction isWording as with
  | case1 as ih => exact ih ha
  | case2 c as _ ih =>
      rw [Bool.and_eq_true] at ha
      rw [List.cons_append, isWording_cons ha.1]
      exact ih ha.2
  | case3 => exact hb

theorem isWording_of_quiet {cs : List Char} (h : Quiet cs) : isWording cs = true := by
  induction cs with
  | nil => rfl
  | cons c cs ih =>
      rw [quiet_cons] at h
      rw [isWording_cons h.1]
      exact ih h.2

/-- For the texts that are spelled out: their characters are checked one by one. -/
theorem isWording_ofList {cs : List Char} (h : isWording cs = true) :
    isWording (String.ofList cs).toList = true := by
  rwa [String.toList_ofList]

/-- Words put together. -/
theorem isWording_toList_append {s t : String} (hs : isWording s.toList = true)
    (ht : isWording t.toList = true) : isWording (s ++ t).toList = true := by
  rw [String.toList_append]
  exact isWording_append hs ht

/-- A word between blanks. -/
theorem isWording_spaced {text : String} (h : isWording text.toList = true) :
    isWording (" " ++ text ++ " ").toList = true :=
  isWording_toList_append (isWording_toList_append (isWording_ofList rfl) h) (isWording_ofList rfl)

/-! ### Numerals -/

theorem isQuiet_of_isDigit {c : Char} (h : c.isDigit = true) : isQuiet c = true := by
  have loud : loudChars.all (!·.isDigit) = true := rfl
  cases hc : isQuiet c with
  | true => rfl
  | false =>
      have undigit := List.all_eq_true.mp loud c (by simpa [isQuiet] using hc)
      rw [h] at undigit
      cases undigit

@[simp] theorem quiet_numeral (n : Nat) : Quiet (Text.numeral n) := fun _ hc =>
  isQuiet_of_isDigit (Nat.isDigit_of_mem_toDigits (by decide) (by decide) hc)

theorem isWording_toString (n : Nat) : isWording (toString n).toList = true := by
  have digits : (toString n).toList = Text.numeral n := by simp [Text.numeral]
  rw [digits]
  exact isWording_of_quiet (quiet_numeral n)

/-! ### The texts of a dialect -/

section
variable (d : Dialect)

/-- The sign of an operator with the blanks around it, which the slash of a division needs. -/
theorem isWording_operatorText {op : BinaryOperator} (h : ∀ text, op ≠ .custom text) :
    isWording (" " ++ d.operatorText op ++ " ").toList = true := by
  cases op with
  | custom text => exact absurd rfl (h text)
  | division => cases d <;> rfl
  | _ => exact isWording_spaced (by cases d <;> exact isWording_ofList rfl)

theorem isWording_likeText (caseSensitive negated : Bool) :
    isWording (d.likeText caseSensitive negated).toList = true := by
  cases d <;> cases caseSensitive <;> cases negated <;> exact isWording_ofList rfl

theorem isWording_boolText (b : Bool) : isWording (d.boolText b).toList = true := by
  cases d <;> cases b <;> exact isWording_ofList rfl

theorem isWording_regexpText {caseSensitive negated : Bool} {text : String}
    (h : d.regexpText caseSensitive negated = .ok text) : isWording text.toList = true := by
  cases d <;> cases caseSensitive <;> cases negated <;> cases h <;> exact isWording_ofList rfl

theorem isWording_joinText {kind : JoinKind} {text : String} (h : d.joinText kind = .ok text) :
    isWording text.toList = true := by
  cases d <;> cases kind <;> cases h <;> exact isWording_ofList rfl

end

theorem isWording_setOperator (op : SetOperator) : isWording op.text.toList = true := by
  cases op <;> exact isWording_ofList rfl

theorem isWording_direction (direction : Direction) : isWording direction.text.toList = true := by
  cases direction <;> exact isWording_ofList rfl

/-- The functions whose names the caller does not spell. -/
theorem isWording_functionKind {kind : FunctionKind} (h : ∀ name, kind ≠ .named name) :
    isWording kind.text.toList = true := by
  cases kind with
  | named name => exact absurd rfl (h name)
  | _ => exact isWording_ofList rfl

theorem isWording_frameUnits (units : FrameUnits) : isWording units.text.toList = true := by
  cases units <;> exact isWording_ofList rfl

theorem isWording_frameBound (bound : FrameBound) : isWording bound.text.toList = true := by
  cases bound with
  | preceding n | following n =>
      exact isWording_toList_append (isWording_toString n) (isWording_ofList rfl)
  | _ => exact isWording_ofList rfl

theorem isWording_frame (f : Frame) : isWording f.text.toList = true := by
  obtain ⟨units, start, stop?⟩ := f
  have units_wording := isWording_frameUnits units
  have start_wording := isWording_frameBound start
  cases stop? with
  | none =>
      exact isWording_toList_append (isWording_toList_append units_wording (isWording_ofList rfl))
        start_wording
  | some stop =>
      exact isWording_toList_append (isWording_toList_append (isWording_toList_append
        (isWording_toList_append units_wording (isWording_ofList rfl)) start_wording)
        (isWording_ofList rfl)) (isWording_frameBound stop)

end SqlTree
