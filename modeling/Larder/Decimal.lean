import Larder.Bytes

/-!
# Decimal numbers

Lengths, lifetimes and counts are written as decimal digits.  `Decimal.ofNat` writes without
leading zeros; `Decimal.digits?` reads any non-empty run of digits, and `Decimal.unsigned?`
allows a plus sign in front and refuses numbers that do not fit in 64 bits.
-/

namespace Larder.Decimal

/-- The ASCII digit of a number below ten. -/
def digit (number : Nat) : UInt8 :=
  48 + UInt8.ofNat number

/-- Whether a byte is an ASCII digit. -/
def isDigit (byte : UInt8) : Bool :=
  48 ≤ byte && byte ≤ 57

/-- The number written with decimal digits, none of them a needless zero. -/
def ofNat (number : Nat) : Bytes :=
  if number < 10 then [digit number] else ofNat (number / 10) ++ [digit (number % 10)]
termination_by number

/-- The value of a run of digits, read from the left. -/
def value (digits : Bytes) : Nat :=
  digits.foldl (fun total byte => 10 * total + (byte - 48).toNat) 0

/-- The value of a non-empty run of digits. -/
def digits? (bytes : Bytes) : Option Nat :=
  if bytes ≠ [] ∧ bytes.all isDigit then some (value bytes) else none

/-- A number of 64 bits, written as digits with at most one plus sign in front. -/
def unsigned? (bytes : Bytes) : Option Nat :=
  let digits := match bytes with
    | 43 :: rest => rest
    | _ => bytes
  (digits? digits).filter (· ≤ Word64.largest)

end Larder.Decimal
