/-
Reading a text into source lines.

The only text refused is one with a NUL character in a line, which is binary
data and no source. Text beyond column 80 of fixed format is reported and
ignored.
-/

import CobolAnalysis.Source.Line

namespace CobolAnalysis.Source

inductive PreprocessError where
  /-- Binary data; lines are counted from one here. -/
  | binaryContent (line : Nat)
  /-- A stage gave up, or broke the rule that it returns one line for each line. -/
  | stage (name message : String)
  deriving DecidableEq

namespace PreprocessError

def message : PreprocessError → String
  | binaryContent line => "source contains binary data at line " ++ toString line
  | stage name reason => name ++ " stage failed: " ++ reason

end PreprocessError

def programText (format : Format) (raw : List Char) : List Char :=
  let kept := if format = .fixed then raw.take rightMargin else raw
  kept.drop programTextColumn

def referenceLine (format : Format) (number : Nat) (raw : List Char) : Line where
  number := number
  sequence := raw.take indicatorColumn
  indicator := (raw[indicatorColumn]?).elim .normal Indicator.ofChar
  content := programText format raw
  offset := programTextColumn

/-- A free-format line is a comment when its first visible characters say so. -/
def freeLine (number : Nat) (raw : List Char) : Line where
  number := number
  sequence := []
  indicator := if ['*', '>'].isPrefixOf (Text.trimStart raw) then .comment else .normal
  content := raw
  offset := 0

def readLine (format : Format) (number : Nat) (raw : List Char) : Line :=
  match format with
  | .free => freeLine number raw
  | _ => referenceLine format number raw

def overlong (uri : String) (format : Format) (number : Nat) (raw : List Char) :
    List Diagnostic :=
  if format = .fixed ∧ longestFixedLine < raw.length then
    [.warning ⟨uri, Span.onLine number longestFixedLine (raw.length - longestFixedLine)⟩
      Diagnostic.Code.lineTooLong "Source text cannot go past column 80"]
  else []

def readFrom (uri : String) (format : Format) :
    Nat → List (List Char) → Except PreprocessError (Diagnosed (List Line))
  | _, [] => .ok (.clean [])
  | number, raw :: rest =>
      if raw.contains '\x00' then .error (.binaryContent (number + 1))
      else
        match readFrom uri format (number + 1) rest with
        | .error failure => .error failure
        | .ok following =>
            .ok ⟨readLine format number raw :: following.value,
              overlong uri format number raw ++ following.diagnostics⟩

def readLines (uri : String) (format : Format) (text : List Char) :
    Except PreprocessError (Diagnosed (List Line)) :=
  readFrom uri format 0 (Text.lines text)

end CobolAnalysis.Source
