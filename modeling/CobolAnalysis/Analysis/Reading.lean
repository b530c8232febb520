/-
Reading one document: preprocess it, then parse what is left.

The reports of preprocessing come before those of parsing. The document is lost
only if one of the two gives up.
-/

import CobolAnalysis.Parse.Document
import CobolAnalysis.Source.Pipeline

namespace CobolAnalysis

inductive ReadingError where
  | preprocessing (cause : Source.PreprocessError)
  | parsing (cause : Parse.ParseError)
  deriving DecidableEq

namespace ReadingError

def message : ReadingError → String
  | preprocessing cause => "preprocessing failed: " ++ cause.message
  | parsing cause => "parsing failed: " ++ cause.message

end ReadingError

structure Reading where
  stage : Source.Stage
  parser : Parse.Parser
  format : Source.Format
  options : Parse.Options

namespace Reading

def document (reading : Reading) (uri : String) (text : List Char) :
    Except ReadingError Parse.ParsedDocument :=
  match Source.preprocess reading.stage uri reading.format text with
  | .error cause => .error (.preprocessing cause)
  | .ok preprocessed =>
      match reading.parser uri preprocessed.value reading.format reading.options with
      | .error cause => .error (.parsing cause)
      | .ok parsed =>
          .ok ⟨(Context.ofDiagnostics preprocessed.diagnostics).merge parsed.context,
            parsed.references⟩

end Reading

end CobolAnalysis
