/-
Sets of code points, written as inclusive ranges in increasing order.
The property tables are of this form.
-/

namespace CobolAnalysis.Text

abbrev CodePoints := List (Nat × Nat)

def CodePoints.holds (ranges : CodePoints) (character : Char) : Bool :=
  ranges.any fun range => range.1 ≤ character.toNat && character.toNat ≤ range.2

end CobolAnalysis.Text
