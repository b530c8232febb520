/-
Whole numbers written in decimal digits.
-/

namespace CobolAnalysis.Text.Decimal

def digitValue (digit : Char) : Nat := digit.toNat - '0'.toNat

/-- The number a run of digits denotes; leading zeros add nothing. -/
def value (digits : List Char) : Nat :=
  digits.foldl (fun total digit => total * 10 + digitValue digit) 0

/-- Decimal digits of a number, without leading zeros. -/
def digits (number : Nat) : List Char := Nat.toDigits 10 number

end CobolAnalysis.Text.Decimal
