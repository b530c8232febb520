/-
Lengths of time, kept in whole nanoseconds and shown in the largest unit of
which at least one is full, down to the nanosecond: 1.5s, 20ms, 123.456µs, 7ns.
A fraction is exact, and its trailing zeros are left out.
-/

import CobolAnalysis.Text.Decimal

namespace CobolAnalysis.Text

structure Elapsed where
  nanoseconds : Nat
  deriving DecidableEq

namespace Elapsed

def ofSeconds (seconds : Nat) : Elapsed := ⟨seconds * 1000000000⟩

/-- Digits after the point for `part` out of ten to the power `places`. -/
def fraction (part places : Nat) : List Char :=
  let written := Decimal.digits part
  let padded := List.replicate (places - written.length) '0' ++ written
  (padded.reverse.dropWhile (· == '0')).reverse

def inUnit (elapsed : Elapsed) (places : Nat) (unit : String) : String :=
  let size := Nat.pow 10 places
  let whole := String.ofList (Decimal.digits (elapsed.nanoseconds / size))
  match fraction (elapsed.nanoseconds % size) places with
  | [] => whole ++ unit
  | digits => whole ++ "." ++ String.ofList digits ++ unit

def display (elapsed : Elapsed) : String :=
  if 1000000000 ≤ elapsed.nanoseconds then elapsed.inUnit 9 "s"
  else if 1000000 ≤ elapsed.nanoseconds then elapsed.inUnit 6 "ms"
  else if 1000 ≤ elapsed.nanoseconds then elapsed.inUnit 3 "µs"
  else elapsed.inUnit 0 "ns"

end Elapsed

end CobolAnalysis.Text
