/-
Reserved words that the sentence grammar has to know. All are compared without
regard to letter case.
-/

namespace CobolAnalysis.Parse

/-- Words that make a sentence of their own and so name no paragraph. -/
def sentenceKeywords : List String :=
  ["AUTHOR", "CONTINUE", "DATE-COMPILED", "DATE-WRITTEN", "EJECT", "ELSE", "END-CALL",
   "END-COMPUTE", "END-EVALUATE", "END-EXEC", "END-IF", "END-PERFORM", "END-READ", "END-SEARCH",
   "END-STRING", "END-WRITE", "EXIT", "GOBACK", "INSTALLATION", "PROGRAM-ID", "REMARKS",
   "SECURITY", "SKIP1", "SKIP2", "SKIP3", "STOP"]

def divisionSections : List String :=
  ["COMMUNICATION", "CONFIGURATION", "FILE", "INPUT-OUTPUT", "LINKAGE", "LOCAL-STORAGE", "REPORT",
   "SCREEN", "WORKING-STORAGE"]

/-- Words that may follow a level number in place of a data name. -/
def dataClauses : List String :=
  ["BLANK", "FILLER", "JUST", "JUSTIFIED", "OCCURS", "PIC", "PICTURE", "REDEFINES", "SIGN", "SYNC",
   "SYNCHRONIZED", "USAGE", "VALUE", "VALUES"]

/-- Words after PERFORM that name no procedure. -/
def performOptions : List String := ["UNTIL", "VARYING", "WITH", "TEST", "FOREVER"]

end CobolAnalysis.Parse
