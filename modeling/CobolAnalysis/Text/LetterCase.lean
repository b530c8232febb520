/-
Letter case of the ASCII alphabet. Every other character is its own capital,
so names that differ only in accents or in another alphabet stay different.
-/

namespace CobolAnalysis.Text

/-- Capitals for the letters a to z, everything else unchanged. -/
def upper (text : List Char) : List Char := text.map Char.toUpper

def sameLetters (left right : List Char) : Bool := upper left == upper right

end CobolAnalysis.Text
