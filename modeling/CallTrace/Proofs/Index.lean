import Mathlib.Algebra.Group.Nat.Defs

/-!
# Natural numbers as 32-bit numbers

Order indices, depths and the numbers of texts are 32-bit numbers that count from zero. Below
`2 ^ 31` counting with them is counting with natural numbers, and below the greatest number the next
number is the greater one.
-/

namespace CallTrace.Index

variable {m n : Nat}

theorem toInt_ofNat (h : n < 2 ^ 31) : (Int32.ofNat n).toInt = n := by
  rw [Int32.toInt_ofNat_of_lt h]

theorem eq_ofNat {x : Int32} (h : x.toInt = n) : x = Int32.ofNat n := by
  have hlt := x.toInt_lt
  rw [← Int32.toInt_inj, toInt_ofNat (by omega), h]

theorem not_neg (h : n < 2 ^ 31) : ¬ Int32.ofNat n < 0 := by
  rw [Int32.lt_iff_toInt_lt, toInt_ofNat h, Int32.toInt_zero]
  omega

theorem inj (hm : m < 2 ^ 31) (hn : n < 2 ^ 31) (h : Int32.ofNat m = Int32.ofNat n) : m = n := by
  have := congrArg Int32.toInt h
  rw [toInt_ofNat hm, toInt_ofNat hn] at this
  exact_mod_cast this

theorem lt_iff (hm : m < 2 ^ 31) (hn : n < 2 ^ 31) : Int32.ofNat m < Int32.ofNat n ↔ m < n := by
  rw [Int32.lt_iff_toInt_lt, toInt_ofNat hm, toInt_ofNat hn]
  exact Int.ofNat_lt

theorem le_iff (hm : m < 2 ^ 31) (hn : n < 2 ^ 31) : Int32.ofNat m ≤ Int32.ofNat n ↔ m ≤ n := by
  rw [Int32.le_iff_toInt_le, toInt_ofNat hm, toInt_ofNat hn]
  exact Int.ofNat_le

theorem succ (n : Nat) : Int32.ofNat (n + 1) = Int32.ofNat n + 1 := by
  simp

theorem pred_succ (n : Nat) : Int32.ofNat (n + 1) - 1 = Int32.ofNat n := by
  simp

theorem ne_maxValue (h : n + 1 < 2 ^ 31) : Int32.ofNat n ≠ Int32.maxValue := by
  intro he
  have := congrArg Int32.toInt he
  rw [toInt_ofNat (by omega)] at this
  have hmax : Int32.maxValue.toInt = 2 ^ 31 - 1 := rfl
  omega

/-! ## Up to the greatest number -/

variable {i : Int32}

theorem toInt_le_maxValue (i : Int32) : i.toInt ≤ Int32.maxValue.toInt := by
  have hmax : Int32.maxValue.toInt = 2 ^ 31 - 1 := rfl
  have := i.toInt_lt
  omega

theorem le_maxValue (i : Int32) : i ≤ Int32.maxValue :=
  Int32.le_iff_toInt_le.mpr (toInt_le_maxValue i)

theorem toInt_add_one (h : i ≠ Int32.maxValue) : (i + 1).toInt = i.toInt + 1 := by
  have hne : i.toInt ≠ Int32.maxValue.toInt := fun he => h (Int32.toInt_inj.mp he)
  have hmax : Int32.maxValue.toInt = 2 ^ 31 - 1 := rfl
  have hle := toInt_le_maxValue i
  have hge := i.le_toInt
  rw [Int32.toInt_add, Int32.toInt_one, Int.bmod_eq_of_le] <;> omega

theorem lt_add_one_of_ne (h : i ≠ Int32.maxValue) : i < i + 1 := by
  rw [Int32.lt_iff_toInt_lt, toInt_add_one h]
  omega

theorem max_eq (i j : Int32) : max i j = if i ≤ j then j else i := rfl

theorem left_le_max (i j : Int32) : i ≤ max i j := by
  rw [max_eq]
  split
  · assumption
  · exact Int32.le_refl i

theorem right_le_max (i j : Int32) : j ≤ max i j := by
  rw [max_eq]
  split
  case isTrue => exact Int32.le_refl j
  case isFalse h => exact Int32.le_of_lt (Int32.not_le.mp h)

theorem maxValue_max (i : Int32) : max Int32.maxValue i = Int32.maxValue :=
  Int32.le_antisymm (le_maxValue _) (left_le_max _ _)

end CallTrace.Index
