/-
Quoted literals within a stretch of program text.

A quote of either kind opens a literal that the next quote of the same kind
closes; what stands between them, the other kind included, is content.
-/

namespace CobolAnalysis.Source

def isQuote (character : Char) : Bool := character == '"' || character == '\''

/-- The quote that is open after `character`, given the one open before it. -/
def quoteAfter (opened : Option Char) (character : Char) : Option Char :=
  match opened with
  | none => if isQuote character then some character else none
  | some quote => if character = quote then none else some quote

/-- The quote left open at the end of a text. -/
def openQuote (text : List Char) : Option Char := text.foldl quoteAfter none

/-- The text up to the first comment mark outside a literal, `opened` being open at its start. -/
def beforeComment (opened : Option Char) : List Char → List Char
  | [] => []
  | character :: rest =>
      if opened = none ∧ character = '*' ∧ rest.head? = some '>' then []
      else character :: beforeComment (quoteAfter opened character) rest

end CobolAnalysis.Source
