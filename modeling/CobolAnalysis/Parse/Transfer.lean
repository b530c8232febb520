/-
Transfers of control: PERFORM name [THRU name] and GO [TO] name.

The names are uses of paragraphs. An integer before TIMES repeats an inline
block and names nothing.
-/

import CobolAnalysis.Lexeme
import CobolAnalysis.Parse.Finding
import CobolAnalysis.Parse.Keywords

namespace CobolAnalysis.Parse.Transfer

def isRepetition (target : Lexeme) (afterTarget : List Lexeme) : Bool :=
  target.kind == .integer && (afterTarget.head?).any (Lexeme.isWord · "TIMES")

def rangeEnd (afterTarget : List Lexeme) : List Lexeme :=
  if (afterTarget[0]?).any fun lexeme => lexeme.isWord "THRU" || lexeme.isWord "THROUGH" then
    ((afterTarget[1]?).filter Lexeme.isName).toList
  else []

def performed : List Lexeme → List Lexeme
  | [] => []
  | target :: afterTarget =>
      if target.isName && !target.isAnyOf performOptions && !isRepetition target afterTarget then
        target :: rangeEnd afterTarget
      else []

def gone (rest : List Lexeme) : List Lexeme :=
  let target := if (rest[0]?).any (Lexeme.isWord · "TO") then rest[1]? else rest[0]?
  (target.filter Lexeme.isName).toList

/-- The paragraphs that `word` transfers control to. -/
def targets (word : Lexeme) (rest : List Lexeme) : List Lexeme :=
  if word.isWord "PERFORM" then performed rest
  else if word.isWord "GO" then gone rest
  else []

def findings (uri : String) (word : Lexeme) (rest : List Lexeme) : List Finding :=
  (targets word rest).map fun target => .usage .paragraph target.text (target.location uri)

end CobolAnalysis.Parse.Transfer
