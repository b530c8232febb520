/-
Names of copybooks.

A copybook is asked for by a logical name, not by a path. The blanks and quotes
around a written name do not belong to it and the case of ASCII letters does not
matter, so a name is brought into one normal form when it is read and compared
by plain equality from then on.
-/

import CobolAnalysis.OrderedSet
import CobolAnalysis.Text.Blank
import CobolAnalysis.Text.LetterCase
import CobolAnalysis.Text.Quoted

namespace CobolAnalysis

inductive NameError where
  | empty
  /-- A blank inside the written name; the text is what was left after trimming. -/
  | blankInside (text : List Char)
  deriving DecidableEq

namespace NameError

def message : NameError → String
  | empty => "copybook name is empty"
  | blankInside text =>
      "copybook name contains whitespace: " ++ String.ofList (Text.Quoted.quote text)

end NameError

structure LogicalName where
  text : List Char
  deriving DecidableEq, Inhabited

namespace LogicalName

def isQuote (character : Char) : Bool := character == '\'' || character == '"'

def stripQuotes (text : List Char) : List Char :=
  ((text.dropWhile isQuote).reverse.dropWhile isQuote).reverse

/-- What is left of a written name without blanks, quotes, and the blanks inside those quotes. -/
def bare (written : List Char) : List Char := Text.trim (stripQuotes (Text.trim written))

def parse (written : List Char) : Except NameError LogicalName :=
  let text := bare written
  if text.isEmpty then .error .empty
  else if text.any Text.isBlank then .error (.blankInside text)
  else .ok ⟨Text.upper text⟩

def display (name : LogicalName) : String := String.ofList name.text

/-- Stands for the text of the copybook where its place is not known. -/
def uri (name : LogicalName) : String := "copybook:///" ++ name.display

instance : LT LogicalName := ⟨fun left right => left.text < right.text⟩

instance : DecidableLT LogicalName := fun left right =>
  inferInstanceAs (Decidable (left.text < right.text))

instance : StrictOrder (List Char) where
  irreflexive := fun value => List.lt_irrefl value
  transitive := List.lt_trans
  connected := fun notBelow notAbove => List.le_antisymm notAbove notBelow

instance : StrictOrder LogicalName where
  irreflexive := fun value => List.lt_irrefl value.text
  transitive := fun lower upper => List.lt_trans (α := Char) lower upper
  connected := by
    intro left right notBelow notAbove
    obtain ⟨leftText⟩ := left
    obtain ⟨rightText⟩ := right
    have same : leftText = rightText := StrictOrder.connected notBelow notAbove
    rw [same]

end LogicalName

end CobolAnalysis
