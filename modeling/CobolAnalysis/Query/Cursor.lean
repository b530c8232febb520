/-
The symbols a cursor stands on.

A recorded occurrence under the cursor decides alone. Where nothing is recorded,
the word under the cursor is looked up by name, which finds symbols that are
mentioned elsewhere: a variable in a DISPLAY is recorded only where it is
defined.
-/

import CobolAnalysis.Context
import CobolAnalysis.Text.Lines
import CobolAnalysis.Word

namespace CobolAnalysis.Query

structure Cursor where
  uri : String
  text : List Char
  context : Context
  position : Position

namespace Cursor

def word? (cursor : Cursor) : Option (List Char) :=
  ((Text.lines cursor.text)[cursor.position.line]?).bind fun line =>
    Word.at? line cursor.position.column

/-- An occurrence in the cursor's document under the cursor. -/
def touches (cursor : Cursor) (location : Location) : Bool :=
  location.covers cursor.uri cursor.position

def symbols (cursor : Cursor) : List (SymbolKey × Occurrences) :=
  match cursor.context.symbolAt? cursor.uri cursor.position with
  | some found => [found]
  | none => cursor.word?.elim [] cursor.context.lookup

end Cursor

end CobolAnalysis.Query
