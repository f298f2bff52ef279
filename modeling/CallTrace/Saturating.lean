/-!
# Saturating arithmetic

Sums, differences and products of 64-bit integers that stop at the ends of the range.
-/

namespace CallTrace.Saturating

/-- The 64-bit integer nearest to a whole number. -/
def clamp (n : Int) : Int64 :=
  if n < Int64.minValue.toInt then Int64.minValue
  else if Int64.maxValue.toInt < n then Int64.maxValue
  else Int64.ofInt n

/-- A sum that stops at the ends of the range. -/
def add (a b : Int64) : Int64 := clamp (a.toInt + b.toInt)

/-- A difference that stops at the ends of the range. -/
def sub (a b : Int64) : Int64 := clamp (a.toInt - b.toInt)

end CallTrace.Saturating
