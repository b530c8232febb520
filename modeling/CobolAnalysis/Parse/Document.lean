/-
Parsing a preprocessed document.

One walk over the lexemes. It keeps three facts about what lies behind: the
lexeme directly before, whether a sentence can start here, and whether the
procedure division has begun. A COPY statement is stepped over as a whole, and a
sentence can start after it.
-/

import CobolAnalysis.Parse.CopyStatement
import CobolAnalysis.Parse.Sentence
import CobolAnalysis.Parse.Transfer

namespace CobolAnalysis.Parse

structure Progress where
  previous : Option Lexeme
  atSentenceStart : Bool
  inProcedure : Bool
  deriving DecidableEq

namespace Progress

def start : Progress := ⟨none, true, false⟩

/-- Past an unrecognized lexeme, which leaves the sentence as it was. -/
def pastUnrecognized (progress : Progress) (lexeme : Lexeme) : Progress :=
  { progress with previous := some lexeme }

def pastCopy (progress : Progress) (copy : Lexeme) (operands : List Lexeme) : Progress :=
  { progress with previous := some (operands.getLastD copy), atSentenceStart := true }

/-- A DIVISION word that is not the first lexeme decides whether the procedure division is
meant. -/
def inProcedureAt (progress : Progress) (lexeme : Lexeme) : Bool :=
  match progress.previous with
  | some previous =>
      if lexeme.isWord "DIVISION" then previous.isWord "PROCEDURE" else progress.inProcedure
  | none => progress.inProcedure

def past (progress : Progress) (lexeme : Lexeme) : Progress :=
  ⟨some lexeme, lexeme.isSeparator, progress.inProcedureAt lexeme⟩

end Progress

def unexpected (uri : String) (lexeme : Lexeme) : Finding :=
  .problem (.warning (lexeme.location uri) Diagnostic.Code.unexpectedCharacter
    ("Unexpected character '" ++ String.ofList lexeme.text ++ "'"))

/-- The findings at one recognized lexeme outside COPY statements. -/
def findingsAt (setting : Setting) (progress : Progress) (lexeme : Lexeme) (rest : List Lexeme) :
    List Finding :=
  (if progress.atSentenceStart then
      Sentence.findings setting (progress.inProcedureAt lexeme) lexeme rest
    else []) ++
  (if setting.options.collectUsages then Transfer.findings setting.uri lexeme rest else [])

def walk (setting : Setting) (progress : Progress) : List Lexeme → List Finding
  | [] => []
  | lexeme :: rest =>
      if !lexeme.isRecognized then
        unexpected setting.uri lexeme :: walk setting (progress.pastUnrecognized lexeme) rest
      else if lexeme.isWord "COPY" then
        CopyStatement.finding setting.uri lexeme rest ::
          walk setting (progress.pastCopy lexeme (rest.take (CopyStatement.extent rest)))
            (rest.drop (CopyStatement.extent rest))
      else
        findingsAt setting progress lexeme rest ++ walk setting (progress.past lexeme) rest
termination_by lexemes => lexemes.length
decreasing_by
  · exact Nat.lt_succ_self _
  · rw [List.length_drop, List.length_cons]
    omega
  · exact Nat.lt_succ_self _

def findingsOf (setting : Setting) (text : List Char) : List Finding :=
  walk setting .start (Lexeme.scan text)

/-- The standard parser. It accepts every text. -/
def document (uri : String) (text : List Char) (format : Source.Format) (options : Options) :
    ParsedDocument :=
  .ofFindings (findingsOf ⟨uri, format, options⟩ text)

def standard : Parser := fun uri text format options =>
  .ok (document uri text format options)

end CobolAnalysis.Parse
