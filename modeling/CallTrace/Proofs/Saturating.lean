import CallTrace.Record
import CallTrace.Saturating
import Mathlib.Algebra.Order.Group.Int

/-!
# Saturating arithmetic on whole numbers

A sum that stops at the ends of the range is the whole sum, cut to the range at the end, as long as
nothing negative is added: it does not matter in which order the summands come.
-/

namespace CallTrace

/-- The whole number is a 64-bit integer. -/
def FitsInt64 (n : Int) : Prop := Int64.minValue.toInt ≤ n ∧ n ≤ Int64.maxValue.toInt

instance (n : Int) : Decidable (FitsInt64 n) := inferInstanceAs (Decidable (_ ∧ _))

theorem fitsInt64_toInt (x : Int64) : FitsInt64 x.toInt := ⟨x.minValue_le_toInt, x.toInt_le⟩

theorem toInt_max (a b : Int64) : (max a b).toInt = max a.toInt b.toInt := by
  show (if a ≤ b then b else a).toInt = _
  rw [Int.max_def]
  by_cases h : a ≤ b
  · rw [if_pos h, if_pos (Int64.le_iff_toInt_le.mp h)]
  · rw [if_neg h, if_neg fun h' => h (Int64.le_iff_toInt_le.mpr h')]

namespace Saturating

variable {n : Int}

/-- Whole numbers in the range stay as they are. -/
theorem toInt_clamp (h : FitsInt64 n) : (clamp n).toInt = n := by
  rw [clamp, if_neg (Int.not_lt.mpr h.1), if_neg (Int.not_lt.mpr h.2)]
  exact Int64.toInt_ofInt_of_le h.1 (Int.lt_of_le_of_lt h.2 (by decide))

theorem clamp_toInt (x : Int64) : clamp x.toInt = x :=
  Int64.toInt_inj.mp (toInt_clamp (fitsInt64_toInt x))

theorem clamp_of_lt (h : Int64.maxValue.toInt < n) : clamp n = Int64.maxValue := by
  rw [clamp, if_neg, if_pos h]
  intro hlow
  exact absurd (Int.lt_trans h hlow) (by decide)

/-- A whole number below one in the range stays below it. -/
theorem clamp_le {x : Int64} (h : n ≤ x.toInt) : clamp n ≤ x := by
  rw [Int64.le_iff_toInt_le]
  by_cases hlow : n < Int64.minValue.toInt
  · rw [clamp, if_pos hlow]
    exact x.minValue_le_toInt
  · rw [toInt_clamp ⟨Int.not_lt.mp hlow, Int.le_trans h x.toInt_le⟩]
    exact h

/-- **Adding to a cut sum is cutting the sum.** -/
theorem add_clamp (hn : 0 ≤ n) {d : Int64} (hd : 0 ≤ d.toInt) :
    add (clamp n) d = clamp (n + d.toInt) := by
  have hmin : Int64.minValue.toInt < 0 := by decide
  by_cases hfits : n ≤ Int64.maxValue.toInt
  · rw [add, toInt_clamp ⟨by omega, hfits⟩]
  · have hmax : Int64.maxValue.toInt < n := Int.not_le.mp hfits
    rw [add, clamp_of_lt hmax, clamp_of_lt (show _ < n + d.toInt by omega)]
    rcases Int.lt_or_eq_of_le (show Int64.maxValue.toInt ≤ Int64.maxValue.toInt + d.toInt by omega)
      with h | h
    · exact clamp_of_lt h
    · rw [← h]
      exact clamp_toInt _

end Saturating

namespace Execution

variable {e : Execution}

/-- The duration in whole numbers. -/
def nanos (e : Execution) : Int := max (e.tout.toInt - e.tin.toInt) 0

theorem duration_nonneg (e : Execution) : 0 ≤ e.duration.toInt := by
  rw [duration, toInt_max]
  exact Int.le_max_right _ _

/-- The duration is exact as long as the two times are not too far apart. -/
theorem toInt_duration (h : FitsInt64 (e.tout.toInt - e.tin.toInt)) :
    e.duration.toInt = e.nanos := by
  have hsub : (e.tout - e.tin).toInt = e.tout.toInt - e.tin.toInt := by
    rw [Int64.toInt_sub]
    refine Int.bmod_eq_of_le ?_ ?_
    · exact Int.le_trans (by decide) h.1
    · exact Int.lt_of_le_of_lt h.2 (by decide)
  rw [duration, toInt_max, hsub]
  rfl

end Execution

end CallTrace
