/-!
# Numerals

Whole numbers as text: hexadecimal digits in upper and in lower case, and decimal digits padded with
zeros to a width.
-/

namespace CallTrace.Numeral

/-- The digit of a number below sixteen, letters in upper case. -/
def upperHexDigit (d : Nat) : Char :=
  if d < 10 then Char.ofNat (0x30 + d) else Char.ofNat (0x41 + (d - 10))

/-- The digit of a number below sixteen, letters in lower case. -/
def lowerHexDigit (d : Nat) : Char :=
  if d < 10 then Char.ofNat (0x30 + d) else Char.ofNat (0x61 + (d - 10))

/-- The value of a hexadecimal digit of either case. -/
def hexValue? (c : Char) : Option Nat :=
  let n := c.toNat
  if 0x30 ≤ n && n ≤ 0x39 then some (n - 0x30)
  else if 0x41 ≤ n && n ≤ 0x46 then some (n - 0x41 + 10)
  else if 0x61 ≤ n && n ≤ 0x66 then some (n - 0x61 + 10)
  else none

/-- The digits of a number in a base of at least two, least significant first; none for zero. -/
def digits (base : Nat) (n : Nat) : List Nat :=
  if _h : 2 ≤ base ∧ 0 < n then n % base :: digits base (n / base) else []
termination_by n
decreasing_by exact Nat.div_lt_self (by omega) (by omega)

/-- Writes a number with at least `width` digits. -/
def padded (base : Nat) (digit : Nat → Char) (width n : Nat) : String :=
  let text := ((digits base n).map digit).reverse
  String.ofList (List.replicate (width - text.length) '0' ++ text)

/-- Decimal digits, at least `width` of them. -/
def decimal (width n : Nat) : String := padded 10 lowerHexDigit width n

/-- Hexadecimal digits in upper case, at least `width` of them. -/
def upperHex (width n : Nat) : String := padded 16 upperHexDigit width n

/-- Hexadecimal digits in lower case, at least `width` of them. -/
def lowerHex (width n : Nat) : String := padded 16 lowerHexDigit width n

/-- Whether a character is one of the ten decimal digits. -/
def isDigit (c : Char) : Bool := '0' ≤ c && c ≤ '9'

/-- The number that decimal digits stand for. -/
def ofDigits (text : List Char) : Nat :=
  text.foldl (fun n c => n * 10 + (c.toNat - 0x30)) 0

/-- The value of a list of digits in a base, if each is a digit of the base. -/
def ofDigitsIn? (base : Nat) (text : List Char) : Option Nat :=
  text.foldlM (fun n c => do
    let d ← hexValue? c
    if d < base then return n * base + d else none) 0

end CallTrace.Numeral
