/-
Lexemes of preprocessed program text.

Text is scanned line by line from the left by the rules of logos 0.15. Blanks,
commas and semicolons are skipped; elsewhere the longest match of any pattern is
the lexeme, and an integer goes before a word of the same length. A quote without
its partner on the line makes the rest of the line one unrecognized lexeme; any
other character that starts nothing is an unrecognized lexeme of its own.
-/

import CobolAnalysis.Diagnostic
import CobolAnalysis.Source.Literal
import CobolAnalysis.Text.Blank
import CobolAnalysis.Text.LetterCase
import CobolAnalysis.Text.Lines

namespace CobolAnalysis

inductive LexemeKind where
  | integer
  | word
  | literal
  | period
  | leftParenthesis
  | rightParenthesis
  | operator
  | unrecognized
  deriving DecidableEq, Inhabited

structure Lexeme where
  kind : LexemeKind
  text : List Char
  line : Nat
  column : Nat
  /-- Nothing but a blank or the end of the line follows. -/
  beforeBlank : Bool
  deriving DecidableEq, Inhabited

namespace Lexeme

/-! ### Questions about one lexeme -/

def isWord (lexeme : Lexeme) (keyword : String) : Bool :=
  lexeme.kind == .word && Text.sameLetters lexeme.text keyword.toList

def isAnyOf (lexeme : Lexeme) (keywords : List String) : Bool :=
  keywords.any fun keyword => Text.sameLetters lexeme.text keyword.toList

def isSeparator (lexeme : Lexeme) : Bool := lexeme.kind == .period && lexeme.beforeBlank

/-- Words and integers can both name things; a paragraph may be called 0100. -/
def isName (lexeme : Lexeme) : Bool := lexeme.kind == .word || lexeme.kind == .integer

def isRecognized (lexeme : Lexeme) : Bool := lexeme.kind != .unrecognized

def location (lexeme : Lexeme) (uri : String) : Location :=
  ⟨uri, Span.onLine lexeme.line lexeme.column lexeme.text.length⟩

/-! ### Character classes -/

def isSkipped (character : Char) : Bool :=
  character == ' ' || character == '\t' || character == '\x0c' || character == '\r' ||
    character == ',' || character == ';'

def isNameStart (character : Char) : Bool := character.isAlphanum

def isNameCharacter (character : Char) : Bool :=
  character.isAlphanum || character == '_' || character == '-'

def isOperator (character : Char) : Bool :=
  character == '=' || character == '<' || character == '>' || character == '+' ||
    character == '*' || character == '/' || character == ':' || character == '&'

/-! ### Scanning -/

/-- Kind of the lexeme that starts with `first`, and its characters after the first one. -/
def longest (first : Char) (rest : List Char) : LexemeKind × List Char :=
  if isNameStart first then
    let tail := rest.takeWhile isNameCharacter
    (if (first :: tail).all Char.isDigit then .integer else .word, tail)
  else if Source.isQuote first then
    if rest.contains first then (.literal, rest.takeWhile (· != first) ++ [first])
    else (.unrecognized, rest)
  else if first = '.' then (.period, [])
  else if first = '(' then (.leftParenthesis, [])
  else if first = ')' then (.rightParenthesis, [])
  else if isOperator first then (.operator, rest.takeWhile isOperator)
  else (.unrecognized, [])

/-- The lexemes of line `number` from `column` on, the argument being its text from there. -/
def scanFrom (number column : Nat) : List Char → List Lexeme
  | [] => []
  | first :: rest =>
      if isSkipped first then scanFrom number (column + 1) rest
      else
        let tail := (longest first rest).2
        let following := rest.drop tail.length
        { kind := (longest first rest).1
          text := first :: tail
          line := number
          column := column
          beforeBlank := following.head?.all Text.isBlank } ::
            scanFrom number (column + 1 + tail.length) following
termination_by text => text.length
decreasing_by
  · exact Nat.lt_succ_self _
  · rw [List.length_drop, List.length_cons]
    omega

def scanLine (number : Nat) (line : List Char) : List Lexeme := scanFrom number 0 line

def scanLines : Nat → List (List Char) → List Lexeme
  | _, [] => []
  | number, line :: rest => scanLine number line ++ scanLines (number + 1) rest

def scan (text : List Char) : List Lexeme := scanLines 0 (Text.lines text)

end Lexeme

end CobolAnalysis
