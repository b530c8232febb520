/-
Definitions. They stand at the start of a sentence only.

Outside the procedure division a level number begins a data entry. Anything else
that is defined is a section or a paragraph, whose name stands in area A and is
followed by the word SECTION and a period or by a period alone.
-/

import CobolAnalysis.Lexeme
import CobolAnalysis.Parse.Finding
import CobolAnalysis.Parse.Keywords
import CobolAnalysis.Text.Decimal

namespace CobolAnalysis.Parse

structure Setting where
  uri : String
  format : Source.Format
  options : Options

namespace Sentence

/-- Area A ends with this column in reference format. -/
def areaAEnd : Nat := 10

def inAreaA (format : Source.Format) (lexeme : Lexeme) : Bool :=
  format == .free || lexeme.column ≤ areaAEnd

def largestLevel : Nat := 4294967295

def isValidLevel (level : Nat) : Bool :=
  (1 ≤ level && level ≤ 49) || level == 66 || level == 77 || level == 88

/-- The number that begins a data entry. -/
def level? (inProcedure : Bool) (first : Lexeme) : Option Nat :=
  let level := Text.Decimal.value first.text
  if !inProcedure && first.kind == .integer && decide (level ≤ largestLevel) then some level
  else none

def dataEntry (setting : Setting) (first : Lexeme) (level : Nat) (rest : List Lexeme) :
    List Finding :=
  if isValidLevel level then
    match rest.head? with
    | some name =>
        if name.kind == .word && !name.isAnyOf dataClauses then
          [.definition .dataItem name.text (name.location setting.uri)]
        else []
    | none => []
  else if setting.options.strictLevels then
    [.problem (.warning (first.location setting.uri) Diagnostic.Code.invalidLevel
      ("Invalid level number " ++ toString level))]
  else []

def beginsSection (first : Lexeme) (rest : List Lexeme) : Bool :=
  (rest[0]?).any (Lexeme.isWord · "SECTION") && (rest[1]?).any Lexeme.isSeparator &&
    !first.isAnyOf divisionSections

def beginsParagraph (inProcedure : Bool) (first : Lexeme) (rest : List Lexeme) : Bool :=
  (rest[0]?).any Lexeme.isSeparator && !first.isAnyOf sentenceKeywords &&
    (inProcedure || first.kind == .word)

def procedureName (setting : Setting) (inProcedure : Bool) (first : Lexeme)
    (rest : List Lexeme) : List Finding :=
  if first.isName && inAreaA setting.format first then
    if beginsSection first rest then
      [.definition .procedureSection first.text (first.location setting.uri)]
    else if beginsParagraph inProcedure first rest then
      [.definition .paragraph first.text (first.location setting.uri)]
    else []
  else []

/-- The findings of a sentence that starts with `first`. -/
def findings (setting : Setting) (inProcedure : Bool) (first : Lexeme) (rest : List Lexeme) :
    List Finding :=
  match level? inProcedure first with
  | some level => dataEntry setting first level rest
  | none => procedureName setting inProcedure first rest

end Sentence

end CobolAnalysis.Parse
