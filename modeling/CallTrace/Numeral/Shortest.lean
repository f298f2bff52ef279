import CallTrace.Numeral

/-!
# Shortest decimals

The text of a floating-point number with the fewest digits that read back as the same number, and
of those the nearest to it.

A finite number is `m · 2 ^ q`. The reals that round to it form an interval around it, whose ends
belong to it exactly when `m` is even. For one digit, two digits and so on, the two neighbours of
the number on the decimal grid with that many digits are tried; the first grid with a neighbour in
the interval gives the digits. Seventeen digits are always enough.
-/

namespace CallTrace.Numeral

/-- A finite binary number: `mantissa · 2 ^ exponent`. -/
structure Binary where
  mantissa : Nat
  exponent : Int
  /-- Whether the next smaller number is nearer than the next greater one. -/
  lowerGapHalved : Bool
  deriving DecidableEq, Repr

/-- A decimal number: `coefficient · 10 ^ exponent`. -/
structure Decimal where
  coefficient : Nat
  exponent : Int
  deriving DecidableEq, Repr

namespace Binary

/-- How many fractions a double-precision number may have: there are 52 bits for them. -/
def fractions : Nat := 4503599627370496

/-- The magnitude of a double-precision number with these bits, if it is finite. -/
def ofBits? (bits : UInt64) : Option Binary :=
  let biased := (bits.toNat / fractions) % 2048
  let fraction := bits.toNat % fractions
  if biased = 2047 then none
  else if biased = 0 then some { mantissa := fraction, exponent := -1074, lowerGapHalved := false }
  else
    some { mantissa := fractions + fraction, exponent := Int.ofNat biased - 1075,
           lowerGapHalved := fraction = 0 && 1 < biased }

/-- The numerator of four times the number. -/
def numerator (b : Binary) : Nat := 4 * b.mantissa * Nat.pow 2 b.exponent.toNat

/-- The denominator that goes with `numerator`. -/
def denominator (b : Binary) : Nat := 4 * Nat.pow 2 (-b.exponent).toNat

/-- How far the interval of reals that round to the number reaches down, as a numerator. -/
def gapBelow (b : Binary) : Nat :=
  (if b.lowerGapHalved then 1 else 2) * Nat.pow 2 b.exponent.toNat

/-- How far the interval reaches up. -/
def gapAbove (b : Binary) : Nat := 2 * Nat.pow 2 b.exponent.toNat

/-- The power of ten just above the number: the least `k` with `number < 10 ^ k`. -/
def magnitude (b : Binary) : Int :=
  let whole := b.numerator / b.denominator
  if 0 < whole then Int.ofNat (digits 10 whole).length
  else
    match (List.range 400).find? fun j => b.denominator ≤ b.numerator * Nat.pow 10 j with
    | some j => 1 - Int.ofNat j
    | none => 0

/-- The best neighbour of the number on the grid of multiples of `10 ^ exponent`, if one of the two
rounds to the number. Of two that do the nearer is taken, and the greater when both are as near. -/
def onGrid? (b : Binary) (exponent : Int) : Option Decimal :=
  let scale := Nat.pow 10 (-exponent).toNat
  let unit := b.denominator * Nat.pow 10 exponent.toNat
  let value := b.numerator * scale
  let low := (b.numerator - b.gapBelow) * scale
  let high := (b.numerator + b.gapAbove) * scale
  let closed := b.mantissa % 2 = 0
  let below := value / unit
  let above := below + 1
  let fits (c : Nat) : Bool :=
    if closed then low ≤ c * unit && c * unit ≤ high else low < c * unit && c * unit < high
  match fits below, fits above with
  | true, true =>
    if value - below * unit < above * unit - value then some ⟨below, exponent⟩
    else some ⟨above, exponent⟩
  | true, false => some ⟨below, exponent⟩
  | false, true => some ⟨above, exponent⟩
  | false, false => none

/-- The shortest decimal that rounds to the number. -/
def shortest (b : Binary) : Decimal :=
  let magnitude := b.magnitude
  ((List.range 17).findSome? fun i => b.onGrid? (magnitude - Int.ofNat (i + 1))).getD ⟨0, 0⟩

/-- The number rounded to a whole one, halves to the even neighbour. -/
def toNearestWhole (b : Binary) : Nat :=
  let quotient := b.numerator / b.denominator
  let remainder := b.numerator % b.denominator
  if b.denominator < 2 * remainder || (2 * remainder = b.denominator && quotient % 2 = 1) then
    quotient + 1
  else quotient

end Binary

/-! ## Texts -/

/-- The digits of a coefficient without the zeros at its end, and how many zeros there were. -/
def significant (coefficient : Nat) : List Char × Nat :=
  let reversed := (digits 10 coefficient).map lowerHexDigit
  let rest := reversed.dropWhile (· == '0')
  (rest.reverse, reversed.length - rest.length)

/-- How the text of a floating-point number is laid out. -/
structure FloatLayout where
  /-- The greatest `k` for which a number in `[10 ^ (k - 1), 10 ^ k)` is written without
  exponent. -/
  greatestPlain : Int
  /-- The least such `k`. -/
  leastPlain : Int

/-- Numbers from `10 ^ -4` up to `10 ^ 16` are written without exponent. -/
def FloatLayout.standard : FloatLayout := { greatestPlain := 16, leastPlain := -3 }

/-- Digits with a point `k` places after their start; a whole number ends in `.0`. -/
def plain (text : List Char) (k : Int) : String :=
  if k ≤ 0 then "0." ++ String.ofList (List.replicate (-k).toNat '0' ++ text)
  else
    let whole := text.take k.toNat
    let padding := List.replicate (k.toNat - whole.length) '0'
    let fraction := text.drop k.toNat
    String.ofList (whole ++ padding) ++ "." ++
      (if fraction.isEmpty then "0" else String.ofList fraction)

/-- Digits with a point after the first one and a power of ten. -/
def scientific (text : List Char) (k : Int) : String :=
  let fraction := text.drop 1
  String.ofList (text.take 1) ++ (if fraction.isEmpty then "" else "." ++ String.ofList fraction)
    ++ "e" ++ toString (k - 1)

/-- The text of a magnitude. -/
def layOut (layout : FloatLayout) (d : Decimal) : String :=
  if d.coefficient = 0 then "0.0"
  else
    let (text, zeros) := significant d.coefficient
    let k := Int.ofNat text.length + d.exponent + Int.ofNat zeros
    if layout.leastPlain ≤ k && k ≤ layout.greatestPlain then plain text k else scientific text k

/-- Whether the sign bit is set. -/
def isNegative (bits : UInt64) : Bool := bits.toNat / 9223372036854775808 = 1

/-- The text of a double-precision number with the fewest digits that read back. -/
def floatText (x : Float) : String :=
  let bits := x.toBits
  let sign := if isNegative bits then "-" else ""
  match Binary.ofBits? bits with
  | some b => sign ++ layOut .standard b.shortest
  | none => if bits.toNat % Binary.fractions = 0 then sign ++ "inf" else "NaN"

/-- The text of a double-precision number rounded to a whole one, halves to even. -/
def wholeText (x : Float) : String :=
  let bits := x.toBits
  let sign := if isNegative bits then "-" else ""
  match Binary.ofBits? bits with
  | some b => sign ++ toString b.toNearestWhole
  | none => if bits.toNat % Binary.fractions = 0 then sign ++ "inf" else "NaN"

end CallTrace.Numeral
