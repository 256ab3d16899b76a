import Mathlib.Algebra.Ring.Nat
import Mathlib.Tactic.Common

/-!
# Decimal texts

Numbers in decimal, and padded with zeros to a width: what the text of a number
tells of it. A text padded to `w` has length `w` as long as the number has no
more than `w` digits; whatever the width, it determines the number.
-/

namespace Kit

/-- A text, by its characters. -/
abbrev Text := List Char

namespace Decimal

def decimal (n : Nat) : Text := Nat.toDigits 10 n

/-- `n` in at least `w` digits. -/
def padded (w n : Nat) : Text := (decimal n).leftpad w '0'

theorem ofDigitChars_zeros (k : Nat) (l : Text) :
    Nat.ofDigitChars 10 (List.replicate k '0' ++ l) 0 = Nat.ofDigitChars 10 l 0 := by
  induction k with
  | zero => rfl
  | succ k ih =>
      rw [List.replicate_succ, List.cons_append, Nat.ofDigitChars_cons]
      exact ih

/-- The number can be read back from its text. -/
theorem ofDigitChars_padded (w n : Nat) : Nat.ofDigitChars 10 (padded w n) 0 = n := by
  rw [padded, List.leftpad, ofDigitChars_zeros]
  exact Nat.ofDigitChars_ten_toDigits

theorem padded_injective {w a b : Nat} (h : padded w a = padded w b) : a = b := by
  rw [← ofDigitChars_padded w a, h, ofDigitChars_padded]

theorem decimal_injective {a b : Nat} (h : decimal a = decimal b) : a = b := by
  rw [← Nat.ofDigitChars_ten_toDigits (n := a), ← Nat.ofDigitChars_ten_toDigits (n := b)]
  exact congrArg (Nat.ofDigitChars 10 · 0) h

theorem length_decimal_le {w n : Nat} (hw : 0 < w) (h : n < 10 ^ w) : (decimal n).length ≤ w :=
  (Nat.length_toDigits_le_iff (by decide) hw).mpr h

theorem length_padded {w n : Nat} (hw : 0 < w) (h : n < 10 ^ w) : (padded w n).length = w := by
  rw [padded, List.length_leftpad]
  exact Nat.max_eq_left (length_decimal_le hw h)

/-- A number of `w` digits has a text of length `w`. -/
theorem length_decimal {w n : Nat} (hw : 0 < w) (hlow : 10 ^ w ≤ n) (h : n < 10 ^ (w + 1)) :
    (decimal n).length = w + 1 := by
  apply Nat.le_antisymm (length_decimal_le (Nat.succ_pos w) h)
  rw [Nat.succ_le_iff, ← Nat.not_le]
  intro hle
  exact absurd ((Nat.length_toDigits_le_iff (by decide) hw).mp hle) (Nat.not_lt.mpr hlow)

theorem isDigit_of_mem_decimal {n : Nat} {c : Char} (h : c ∈ decimal n) : c.isDigit = true :=
  Nat.isDigit_of_mem_toDigits (by decide) (by decide) h

theorem isDigit_of_mem_padded {w n : Nat} {c : Char} (h : c ∈ padded w n) :
    c.isDigit = true := by
  rw [padded, List.leftpad, List.mem_append, List.mem_replicate] at h
  rcases h with ⟨_, rfl⟩ | h
  · rfl
  · exact isDigit_of_mem_decimal h

end Decimal

end Kit
