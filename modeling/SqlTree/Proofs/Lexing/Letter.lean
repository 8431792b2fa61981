import Mathlib.Data.Nat.Notation
import SqlTree.Text.Blank

/-!
# SqlTree — Proofs — letters

ASCII letters by their code points.  A small letter is 32 above its capital, and no other character
changes when a text is put in small letters or in capitals.

* `toUpper_eq_iff`: what is no letter is the capital of itself only.
-/

namespace SqlTree

variable {c : Char}

theorem isUpper_iff : c.isUpper = true ↔ 65 ≤ c.toNat ∧ c.toNat ≤ 90 :=
  decide_eq_true_iff.trans (and_congr UInt32.le_iff_toNat_le UInt32.le_iff_toNat_le)

theorem isLower_iff : c.isLower = true ↔ 97 ≤ c.toNat ∧ c.toNat ≤ 122 := by
  show (decide (_ ≤ c.val) && decide (c.val ≤ _)) = true ↔ _
  rw [Bool.and_eq_true, decide_eq_true_iff, decide_eq_true_iff]
  exact and_congr UInt32.le_iff_toNat_le UInt32.le_iff_toNat_le

theorem isAlpha_eq (c : Char) : c.isAlpha = (c.isUpper || c.isLower) := rfl

theorem isAlphanum_eq (c : Char) : c.isAlphanum = (c.isAlpha || c.isDigit) := rfl

theorem not_isUpper_of_isLower (small : c.isLower = true) : ¬c.isUpper = true := by
  rw [isLower_iff] at small
  rw [isUpper_iff]
  omega

/-- The digits come before the capitals. -/
theorem not_isUpper_of_isDigit (digit : c.isDigit = true) : ¬c.isUpper = true := by
  have low : c.toNat ≤ 57 := (Char.isDigit_iff_toNat.mp digit).2
  rw [isUpper_iff]
  omega

/-! ### Small letters -/

theorem toLower_of_not_isUpper (h : ¬c.isUpper = true) : c.toLower = c :=
  dif_neg fun range => h (decide_eq_true range)

theorem isLower_toLower (h : c.isUpper = true) : c.toLower.isLower = true := by
  have shifted : c.toLower.val = c.val + ('a'.val - 'A'.val) := by
    delta Char.toLower
    rw [dif_pos (of_decide_eq_true h)]
  have distance : ('a'.val - 'A'.val).toNat = 32 := by decide
  have code : c.toLower.toNat = (c.toNat + 32) % 4294967296 := by
    rw [Char.toNat, shifted, UInt32.toNat_add, distance]
    rfl
  rw [isUpper_iff] at h
  rw [isLower_iff, code]
  omega

/-! ### Capitals -/

theorem toUpper_of_not_isLower (h : ¬c.isLower = true) : c.toUpper = c :=
  dif_neg fun range =>
    h ((Bool.and_eq_true _ _).mpr ⟨decide_eq_true range.1, decide_eq_true range.2⟩)

theorem isUpper_toUpper (h : c.isLower = true) : c.toUpper.isUpper = true := by
  have range : 'a'.val ≤ c.val ∧ c.val ≤ 'z'.val := by
    obtain ⟨low, high⟩ := (Bool.and_eq_true _ _).mp h
    exact ⟨of_decide_eq_true low, of_decide_eq_true high⟩
  have shifted : c.toUpper.val = c.val + ('A'.val - 'a'.val) := by
    delta Char.toUpper
    rw [dif_pos range]
  have distance : ('A'.val - 'a'.val).toNat = 4294967264 := by decide
  have code : c.toUpper.toNat = (c.toNat + 4294967264) % 4294967296 := by
    rw [Char.toNat, shifted, UInt32.toNat_add, distance]
    rfl
  rw [isLower_iff] at h
  rw [isUpper_iff, code]
  omega

/-- Only letters have capitals, and their capitals are letters. -/
theorem toUpper_eq_iff {x : Char} (h : x.isAlpha = false) : c.toUpper = x ↔ c = x := by
  rw [isAlpha_eq, Bool.or_eq_false_iff] at h
  by_cases small : c.isLower = true
  · have letter := isUpper_toUpper small
    constructor
    · rintro rfl
      rw [h.1] at letter
      cases letter
    · rintro rfl
      rw [h.2] at small
      cases small
  · rw [toUpper_of_not_isLower small]

end SqlTree
