/-
Chains of stages, and the preprocessing of a whole document.

A chain is itself a stage. It stops at the first stage that fails or that
returns another number of lines than it was given; the reports of the stages
follow one another in stage order.
-/

import CobolAnalysis.Source.Stage

namespace CobolAnalysis.Source

namespace Stage

/-- Refuses an answer of another length than the question. -/
def countKept (stage : Stage) (given : List Line) (answer : Diagnosed (List Line)) :
    Except PreprocessError (Diagnosed (List Line)) :=
  if answer.value.length = given.length then .ok answer
  else
    .error (.stage stage.name
      ("returned " ++ toString answer.value.length ++ " lines for " ++
        toString given.length ++ " input lines"))

def runChecked (stage : Stage) (uri : String) (lines : List Line) :
    Except PreprocessError (Diagnosed (List Line)) :=
  match stage.transform uri lines with
  | .error failure => .error failure
  | .ok answer => stage.countKept lines answer

def runAll (uri : String) : List Stage → List Line →
    Except PreprocessError (Diagnosed (List Line))
  | [], lines => .ok (.clean lines)
  | stage :: rest, lines =>
      match stage.runChecked uri lines with
      | .error failure => .error failure
      | .ok answer =>
          match runAll uri rest answer.value with
          | .error failure => .error failure
          | .ok last => .ok ⟨last.value, answer.diagnostics ++ last.diagnostics⟩

def pipeline (stages : List Stage) : Stage where
  name := "pipeline"
  transform := fun uri lines => runAll uri stages lines

/-- Comments, then debug lines, then continuation lines. -/
def standard (debugLinesAsCode : Bool) : List Stage :=
  [comment, debugLine debugLinesAsCode, continuation]

end Stage

/-- Read, transform and write out a document; the reports of the reader come first. -/
def preprocess (stage : Stage) (uri : String) (format : Format) (text : List Char) :
    Except PreprocessError (Diagnosed (List Char)) :=
  match readLines uri format text with
  | .error failure => .error failure
  | .ok read =>
      match stage.transform uri read.value with
      | .error failure => .error failure
      | .ok transformed =>
          .ok ⟨writeText transformed.value, read.diagnostics ++ transformed.diagnostics⟩

end CobolAnalysis.Source
