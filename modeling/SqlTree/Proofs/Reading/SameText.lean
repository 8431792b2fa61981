import SqlTree.Proofs.Writing.Draft
import SqlTree.Sql.Query

/-!
# SqlTree — Proofs — drafts with the same text

Two drafts may be cut into lexemes at other places and still have the same text (`Draft.SameText`).
What is read of drafts side by side is what is read of each, one after the other, up to where the
reading stops (`Draft.readWith_append`); so drafts may be exchanged for others with the same text.
-/

namespace SqlTree

namespace Draft
variable {d : Dialect} {fill : Bind → Except Error String}

/-- One text after the other, unless the reading of the first one stopped. -/
def andThen (s t : String × Option Error) : String × Option Error :=
  match s.2 with
  | none => (s.1 ++ t.1, t.2)
  | some _ => s

theorem andThen_assoc (s t v : String × Option Error) :
    andThen (andThen s t) v = andThen s (andThen t v) := by
  obtain ⟨s, _ | e⟩ := s
  · obtain ⟨t, _ | e⟩ := t
    · show (s ++ t ++ v.1, v.2) = (s ++ (t ++ v.1), v.2)
      rw [String.append_assoc]
    · rfl
  · rfl

theorem readWith_cons (l : Lexeme) (ls : List Lexeme) (fault? : Option Error) :
    readWith d fill ⟨l :: ls, fault?⟩ =
      andThen (readWith d fill ⟨[l], none⟩) (readWith d fill ⟨ls, fault?⟩) := by
  cases l with
  | slot b => cases filled : fill b <;> simp [readWith, texts, andThen, filled]
  | _ => simp [readWith, texts, andThen]

theorem readWith_append (a b : Draft) :
    (a ++ b).readWith d fill = andThen (a.readWith d fill) (b.readWith d fill) := by
  obtain ⟨ls, _ | e⟩ := a
  · induction ls with
    | nil =>
        obtain ⟨ms, fault?⟩ := b
        exact Prod.ext String.empty_append.symm rfl
    | cons l ls ih =>
        show readWith d fill ⟨l :: (ls ++ b.lexemes), b.fault?⟩ = _
        rw [readWith_cons, readWith_cons l ls, andThen_assoc, ← ih]
        rfl
  · -- What stopped stops what comes behind it as well.
    have stopped : ((readWith d fill ⟨ls, some e⟩).2).isSome = true := by
      show ((texts d fill ls).2.or (some e)).isSome = true
      cases (texts d fill ls).2 <;> rfl
    obtain ⟨e', he⟩ := Option.isSome_iff_exists.mp stopped
    show readWith d fill ⟨ls, some e⟩ = _
    rw [andThen, he]

/-- The drafts have the same text, whatever is put into their slots. -/
def SameText (d : Dialect) (a b : Draft) : Prop := ∀ fill, a.readWith d fill = b.readWith d fill

variable {a b a' b' : Draft}

theorem SameText.refl (a : Draft) : SameText d a a := fun _ => rfl

theorem SameText.append (h : SameText d a b) (h' : SameText d a' b') :
    SameText d (a ++ a') (b ++ b') := by
  intro fill
  rw [readWith_append, readWith_append, h fill, h' fill]

/-- Words may be cut into two. -/
theorem sameText_cut (s t : String) : SameText d (fixed (s ++ t)) (fixed s ++ fixed t) := by
  intro fill
  rw [readWith_append]
  simp [readWith, texts, fixed, andThen, Lexeme.text]

end Draft

end SqlTree
