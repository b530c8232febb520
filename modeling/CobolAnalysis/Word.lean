/-
Words under a cursor.

A word is a run of identifier characters and hyphens without the hyphens at its
ends. A cursor on such an outer hyphen, on any other character or past the end
of the line stands on no word.
-/

import CobolAnalysis.Text.IdentifierContinue

namespace CobolAnalysis.Word

/-- Letters, digits, the underscore and the hyphen, and beyond ASCII what may continue an
identifier. -/
def isWordCharacter (character : Char) : Bool :=
  if character.toNat < 0x80 then
    character.isAlphanum || character == '_' || character == '-'
  else Text.identifierContinue.holds character

section Runs

variable (belongs : Char → Bool)

def runBefore (text : List Char) (position : Nat) : Nat :=
  ((text.take position).reverse.takeWhile belongs).length

def runFrom (text : List Char) (position : Nat) : Nat :=
  ((text.drop position).takeWhile belongs).length

/-- First and past-the-last column of the word at `position`, among words of any characters. -/
def boundsBy (text : List Char) (position : Nat) : Option (Nat × Nat) :=
  match text[position]? with
  | none => none
  | some character =>
      if belongs character then
        let first := position - runBefore belongs text position
        let last := position + runFrom belongs text position
        let run := (text.drop first).take (last - first)
        let start := first + (run.takeWhile (· == '-')).length
        let stop := last - (run.reverse.takeWhile (· == '-')).length
        if start ≤ position && position < stop then some (start, stop) else none
      else none

end Runs

def bounds (text : List Char) (position : Nat) : Option (Nat × Nat) :=
  boundsBy isWordCharacter text position

def at? (text : List Char) (position : Nat) : Option (List Char) :=
  (bounds text position).map fun range => (text.drop range.1).take (range.2 - range.1)

end CobolAnalysis.Word
