/-
COPY statements.

  COPY name [OF library | IN library] [REPLACING ...] .

The argument `rest` is always the list of lexemes after the word COPY. A
statement without a name, and one with REPLACING, extends past the next
separator period; any other ends after its last part, period included.
-/

import CobolAnalysis.Lexeme
import CobolAnalysis.Parse.Finding

namespace CobolAnalysis.Parse.CopyStatement

def operand? (rest : List Lexeme) : Option Lexeme :=
  rest.head?.filter fun lexeme => lexeme.isName || lexeme.kind == .literal

def pastSeparator : List Lexeme → Nat
  | [] => 0
  | lexeme :: rest => if lexeme.isSeparator then 1 else pastSeparator rest + 1

/-- The word OF or IN, and the library after it. -/
def libraryExtent (afterName : List Lexeme) : Nat :=
  match afterName.head? with
  | some lexeme => if lexeme.isWord "OF" || lexeme.isWord "IN" then 2 else 0
  | none => 0

def endingExtent (afterLibrary : List Lexeme) : Nat :=
  match afterLibrary.head? with
  | some lexeme =>
      if lexeme.isSeparator then 1
      else if lexeme.isWord "REPLACING" then pastSeparator afterLibrary
      else 0
  | none => 0

/-- How many lexemes after COPY belong to the statement. -/
def extent (rest : List Lexeme) : Nat :=
  match operand? rest with
  | none => pastSeparator rest
  | some _ =>
      let named := 1 + libraryExtent (rest.drop 1)
      named + endingExtent (rest.drop named)

/-- The statement's one finding: a reference, or the reason why it is none. -/
def finding (uri : String) (copy : Lexeme) (rest : List Lexeme) : Finding :=
  match operand? rest with
  | none =>
      .problem (.error (copy.location uri) Diagnostic.Code.missingCopybookName
        "COPY statement is missing a copybook name")
  | some operand =>
      match LogicalName.parse operand.text with
      | .ok name => .copy ⟨name, operand.location uri⟩
      | .error failure =>
          .problem (.error (operand.location uri) Diagnostic.Code.missingCopybookName
            ("Invalid copybook name: " ++ failure.message))

end CobolAnalysis.Parse.CopyStatement
