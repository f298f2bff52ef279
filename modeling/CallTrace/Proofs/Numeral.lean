import CallTrace.Numeral
import Mathlib.Algebra.Group.Nat.Defs
import Mathlib.Data.List.Basic

/-!
# Numerals, written and read

A padded numeral is the standard numeral (`Nat.toDigits`) with zeros in front (`toList_padded`). So
the decimal numerals inherit from it that they consist of digits and are read as the number again
(`ofDigits_decimal`), and a number that fits has exactly as many digits as it is padded to
(`length_decimal`).
-/

namespace CallTrace.Numeral

variable {base width n d : Nat} {c : Char}

/-! ## Digits -/

theorem lowerHexDigit_eq (h : d < 16) : lowerHexDigit d = Nat.digitChar d := by
  have hall : ∀ e < 16, lowerHexDigit e = Nat.digitChar e := by decide
  exact hall d h

/-- The digits of a number above zero, most significant first, are its standard numeral. -/
theorem reverse_digits (hbase : 2 ≤ base) (hle : base ≤ 16) (hn : 0 < n) :
    ((digits base n).map lowerHexDigit).reverse = Nat.toDigits base n := by
  induction n using Nat.strongRecOn with
  | ind n ih =>
    have hmod : n % base < base := Nat.mod_lt n (by omega)
    rw [digits, dif_pos ⟨hbase, hn⟩, List.map_cons, List.reverse_cons,
      lowerHexDigit_eq (by omega)]
    by_cases hlt : n < base
    · rw [Nat.div_eq_of_lt hlt, digits, dif_neg (by omega), Nat.toDigits_of_lt_base hlt,
        Nat.mod_eq_of_lt hlt]
      rfl
    · have hpos : 0 < n / base := Nat.div_pos (by omega) (by omega)
      rw [ih (n / base) (Nat.div_lt_self hn hbase) hpos,
        Nat.toDigits_of_base_le hbase (Nat.not_lt.mp hlt)]

/-- A padded numeral is the standard one with zeros in front. -/
theorem toList_padded (hbase : 2 ≤ base) (hle : base ≤ 16) (hwidth : 0 < width) (n : Nat) :
    (padded base lowerHexDigit width n).toList
      = List.replicate (width - (Nat.toDigits base n).length) '0' ++ Nat.toDigits base n := by
  rw [padded, String.toList_ofList]
  rcases Nat.eq_zero_or_pos n with rfl | hn
  · -- zero has no digits of its own, and one in the standard numeral
    obtain ⟨k, rfl⟩ := Nat.exists_eq_succ_of_ne_zero (Nat.ne_of_gt hwidth)
    rw [digits, dif_neg (by omega), Nat.toDigits_zero]
    simp [List.replicate_succ']
  · rw [reverse_digits hbase hle hn]

/-! ## Decimal numerals -/

theorem ofDigits_eq (text : List Char) : ofDigits text = Nat.ofDigitChars 10 text 0 := by
  simp only [ofDigits, Nat.ofDigitChars, Nat.mul_comm]
  rfl

theorem ofDigits_toDigits (n : Nat) : ofDigits (Nat.toDigits 10 n) = n := by
  rw [ofDigits_eq, Nat.ofDigitChars_toDigits (by decide) (by decide)]

theorem isDigit_of_mem_toDigits (h : c ∈ Nat.toDigits 10 n) : isDigit c = true :=
  Nat.isDigit_of_mem_toDigits (by decide) (by decide) h

theorem exists_cons_toDigits (n : Nat) :
    ∃ c digits, Nat.toDigits 10 n = c :: digits ∧ isDigit c = true := by
  obtain ⟨c, digits, h⟩ := List.exists_cons_of_ne_nil (Nat.toDigits_ne_nil (n := n) (b := 10))
  exact ⟨c, digits, h, isDigit_of_mem_toDigits (n := n) (h ▸ List.mem_cons_self)⟩

/-- Zeros in front make no difference. -/
theorem ofDigits_zeros (k : Nat) (text : List Char) :
    ofDigits (List.replicate k '0' ++ text) = ofDigits text := by
  induction k with
  | zero => rfl
  | succ k ih => exact ih

theorem toList_decimal (hwidth : 0 < width) (n : Nat) :
    (decimal width n).toList
      = List.replicate (width - (Nat.toDigits 10 n).length) '0' ++ Nat.toDigits 10 n :=
  toList_padded (by decide) (by decide) hwidth n

/-- **A decimal numeral is read as its number.** -/
theorem ofDigits_decimal (hwidth : 0 < width) (n : Nat) :
    ofDigits (decimal width n).toList = n := by
  rw [toList_decimal hwidth, ofDigits_zeros, ofDigits_toDigits]

theorem isDigit_of_mem_decimal (hwidth : 0 < width) (h : c ∈ (decimal width n).toList) :
    isDigit c = true := by
  rw [toList_decimal hwidth] at h
  rcases List.mem_append.mp h with hzero | hdigit
  · rw [List.eq_of_mem_replicate hzero]
    rfl
  · exact isDigit_of_mem_toDigits hdigit

theorem length_decimal (hwidth : 0 < width) (h : n < 10 ^ width) :
    (decimal width n).toList.length = width := by
  have hle := (Nat.length_toDigits_le_iff (by decide) hwidth).mpr h
  rw [toList_decimal hwidth, List.length_append, List.length_replicate]
  omega

/-- A numeral of more than one digit does not start with a zero. -/
theorem head?_toDigits_ne (h : 0 < n) : (Nat.toDigits 10 n).head? ≠ some '0' := by
  induction n using Nat.strongRecOn with
  | ind n ih =>
    by_cases hlt : n < 10
    · rw [Nat.toDigits_of_lt_base hlt]
      have hall : ∀ d < 10, 0 < d → [Nat.digitChar d].head? ≠ some '0' := by decide
      exact hall n hlt h
    · rw [Nat.toDigits_of_base_le (by decide) (Nat.not_lt.mp hlt),
        List.head?_append_of_ne_nil _ Nat.toDigits_ne_nil]
      exact ih (n / 10) (Nat.div_lt_self h (by decide)) (Nat.div_pos (by omega) (by decide))

end CallTrace.Numeral
