/-!
# Ranges of characters

A property of characters is kept as its ranges of code points in ascending order, which a search by
halving reads.
-/

namespace CallTrace.Text

/-- Ranges of code points, each with its first and its last, in ascending order. -/
abbrev Ranges := Array (Nat × Nat)

namespace Ranges

/-- Finds a code point among the ranges at the positions `[low, high)` by halving. -/
def search (ranges : Ranges) (n low high : Nat) : Bool :=
  if low < high then
    let middle := (low + high) / 2
    match ranges[middle]? with
    | none => false
    | some (first, last) =>
      if n < first then search ranges n low middle
      else if last < n then search ranges n (middle + 1) high
      else true
  else false
termination_by high - low

/-- Whether a character is in one of the ranges. -/
def has (ranges : Ranges) (c : Char) : Bool := ranges.search c.toNat 0 ranges.size

end Ranges

end CallTrace.Text
