/-
What reading by the standard stages and the standard parser reports.

The reports of a document that was read are about its own text alone: a line that is too
long, a continuation line without a line before it, a level number that does not exist, a
character out of place, a COPY statement without a name. None is about a copybook.
-/

import CobolAnalysis.Analysis.Config
import CobolAnalysis.Analysis.Reading
import CobolAnalysis.Proofs.Parse.Walk
import CobolAnalysis.Proofs.Source.Pipelines

namespace CobolAnalysis

/-- The codes of reports about the text of a document that can be read. -/
def Diagnostic.ordinaryCodes : List String :=
  [Code.missingCopybookName, Code.lineTooLong, Code.orphanContinuation, Code.invalidLevel,
    Code.unexpectedCharacter]

def Diagnostic.Ordinary (diagnostic : Diagnostic) : Prop :=
  ∃ code ∈ ordinaryCodes, diagnostic.code = some code

/-- The codes of reports about lines, whatever stands in them. -/
def Diagnostic.lineCodes : List String := [Code.lineTooLong, Code.orphanContinuation]

def Diagnostic.AboutLine (diagnostic : Diagnostic) : Prop :=
  ∃ code ∈ lineCodes, diagnostic.code = some code

theorem Diagnostic.AboutLine.ordinary {diagnostic : Diagnostic}
    (aboutLine : diagnostic.AboutLine) : diagnostic.Ordinary := by
  obtain ⟨code, member, same⟩ := aboutLine
  have ordinary : ∀ code ∈ lineCodes, code ∈ ordinaryCodes := by decide
  exact ⟨code, ordinary code member, same⟩

/-- Reading by the standard stages under the given settings and by the standard parser. -/
def Reading.standard (config : Config) (format : Source.Format) (options : Parse.Options) :
    Reading :=
  ⟨config.stage, Parse.standard, format, options⟩

namespace Source

theorem overlong_aboutLine (uri : String) (format : Format) (number : Nat) (raw : List Char)
    (diagnostic : Diagnostic) (member : diagnostic ∈ overlong uri format number raw) :
    diagnostic.AboutLine := by
  unfold overlong at member
  split at member
  · rw [List.mem_singleton.mp member]
    exact ⟨Diagnostic.Code.lineTooLong, by decide, rfl⟩
  · exact absurd member List.not_mem_nil

theorem readFrom_aboutLine (uri : String) (format : Format) (number : Nat)
    (raws : List (List Char)) (read : Diagnosed (List Line))
    (accepted : readFrom uri format number raws = .ok read) (diagnostic : Diagnostic)
    (member : diagnostic ∈ read.diagnostics) : diagnostic.AboutLine := by
  induction raws generalizing number read with
  | nil =>
      cases accepted
      exact absurd member List.not_mem_nil
  | cons raw rest ih =>
      unfold readFrom at accepted
      split at accepted
      · cases accepted
      · cases following : readFrom uri format (number + 1) rest with
        | error failure =>
            rw [following] at accepted
            cases accepted
        | ok others =>
            rw [following] at accepted
            cases accepted
            rcases List.mem_append.mp member with here | later
            · exact overlong_aboutLine uri format number raw diagnostic here
            · exact ih (number + 1) others following later

theorem Stage.standard_aboutLine (asCode : Bool) (uri : String) (lines : List Line)
    (answer : Diagnosed (List Line)) (ran : runAll uri (standard asCode) lines = .ok answer)
    (diagnostic : Diagnostic) (member : diagnostic ∈ answer.diagnostics) :
    diagnostic.AboutLine := by
  obtain ⟨stage, present, given, result, transformed, reported⟩ :=
    ((runAll_eq_ok_iff (standard asCode)).mp ran).reported diagnostic member
  simp only [standard, List.mem_cons, List.not_mem_nil, or_false] at present
  rcases present with rfl | rfl | rfl
  · cases transformed
    exact absurd reported List.not_mem_nil
  · cases transformed
    exact absurd reported List.not_mem_nil
  · cases transformed
    obtain ⟨line, _, rfl⟩ := List.mem_map.mp reported
    exact ⟨Diagnostic.Code.orphanContinuation, by decide, rfl⟩

theorem preprocess_aboutLine (config : Config) (uri : String) (format : Format)
    (text : List Char) (preprocessed : Diagnosed (List Char))
    (accepted : preprocess config.stage uri format text = .ok preprocessed)
    (diagnostic : Diagnostic) (member : diagnostic ∈ preprocessed.diagnostics) :
    diagnostic.AboutLine := by
  unfold preprocess at accepted
  cases read : readLines uri format text with
  | error failure =>
      rw [read] at accepted
      cases accepted
  | ok lines =>
      rw [read] at accepted
      simp only at accepted
      cases transformed : config.stage.transform uri lines.value with
      | error failure =>
          rw [transformed] at accepted
          cases accepted
      | ok answer =>
          rw [transformed] at accepted
          cases accepted
          rcases List.mem_append.mp member with reading | staging
          · exact readFrom_aboutLine uri format 0 (Text.lines text) lines read diagnostic reading
          · exact Stage.standard_aboutLine config.debugLinesAsCode uri lines.value answer
              transformed diagnostic staging

end Source

namespace Parse

/-- A finding that is a problem is one of the text itself. -/
def Finding.Ordinary : Finding → Prop
  | problem diagnostic => diagnostic.Ordinary
  | _ => True

theorem Sentence.findings_ordinary (setting : Setting) (inProcedure : Bool) (first : Lexeme)
    (rest : List Lexeme) (finding : Finding)
    (member : finding ∈ findings setting inProcedure first rest) : finding.Ordinary := by
  unfold findings dataEntry procedureName at member
  split at member
  · split at member
    · split at member
      · split at member
        · rw [List.mem_singleton.mp member]
          trivial
        · exact absurd member List.not_mem_nil
      · exact absurd member List.not_mem_nil
    · split at member
      · rw [List.mem_singleton.mp member]
        exact ⟨Diagnostic.Code.invalidLevel, by decide, rfl⟩
      · exact absurd member List.not_mem_nil
  · split at member
    · split at member
      · rw [List.mem_singleton.mp member]
        trivial
      · split at member
        · rw [List.mem_singleton.mp member]
          trivial
        · exact absurd member List.not_mem_nil
    · exact absurd member List.not_mem_nil

theorem CopyStatement.finding_ordinary (uri : String) (copy : Lexeme) (rest : List Lexeme) :
    (finding uri copy rest).Ordinary := by
  unfold finding
  split
  · exact ⟨Diagnostic.Code.missingCopybookName, by decide, rfl⟩
  · split
    · trivial
    · exact ⟨Diagnostic.Code.missingCopybookName, by decide, rfl⟩

theorem findingsAt_ordinary (setting : Setting) (progress : Progress) (lexeme : Lexeme)
    (rest : List Lexeme) (finding : Finding)
    (member : finding ∈ findingsAt setting progress lexeme rest) : finding.Ordinary := by
  unfold findingsAt at member
  rcases List.mem_append.mp member with sentence | transfer
  · split at sentence
    · exact Sentence.findings_ordinary setting _ lexeme rest finding sentence
    · exact absurd sentence List.not_mem_nil
  · split at transfer
    · obtain ⟨target, _, rfl⟩ := List.mem_map.mp transfer
      trivial
    · exact absurd transfer List.not_mem_nil

theorem walk_ordinary (setting : Setting) (progress : Progress) (lexemes : List Lexeme)
    (finding : Finding) (member : finding ∈ walk setting progress lexemes) :
    finding.Ordinary := by
  induction progress, lexemes using walk.induct with
  | case1 progress =>
      rw [walk] at member
      exact absurd member List.not_mem_nil
  | case2 progress lexeme rest unrecognized ih =>
      rw [walk, if_pos unrecognized] at member
      rcases List.mem_cons.mp member with here | later
      · rw [here]
        exact ⟨Diagnostic.Code.unexpectedCharacter, by decide, rfl⟩
      · exact ih later
  | case3 progress lexeme rest recognized copies ih =>
      rw [walk, if_neg recognized, if_pos copies] at member
      rcases List.mem_cons.mp member with here | later
      · rw [here]
        exact CopyStatement.finding_ordinary setting.uri lexeme rest
      · exact ih later
  | case4 progress lexeme rest recognized other ih =>
      rw [walk, if_neg recognized, if_neg other] at member
      rcases List.mem_append.mp member with here | later
      · exact findingsAt_ordinary setting progress lexeme rest finding here
      · exact ih later

end Parse

/-- What a document says by itself is about its lines, or is a problem that the parser finds. -/
theorem Reading.standard_reports {config : Config} {format : Source.Format}
    {options : Parse.Options} {uri : String} {text : List Char} {document : Parse.ParsedDocument}
    (read : (Reading.standard config format options).document uri text = .ok document)
    {diagnostic : Diagnostic} (member : diagnostic ∈ document.context.diagnostics) :
    diagnostic.AboutLine ∨ ∃ written,
      .problem diagnostic ∈ Parse.findingsOf ⟨uri, format, options⟩ written := by
  unfold Reading.document at read
  cases preprocessed : Source.preprocess (Reading.standard config format options).stage uri
      (Reading.standard config format options).format text with
  | error cause =>
      rw [preprocessed] at read
      cases read
  | ok written =>
      rw [preprocessed] at read
      cases read
      rcases List.mem_append.mp member with reported | parsed
      · exact Or.inl (Source.preprocess_aboutLine config uri format text written preprocessed
          diagnostic reported)
      · exact Or.inr ⟨written.value, (Parse.mem_diagnostics_ofFindings _ diagnostic).mp parsed⟩

theorem Reading.standard_ordinary (config : Config) (format : Source.Format)
    (options : Parse.Options) (uri : String) (text : List Char) (document : Parse.ParsedDocument)
    (read : (Reading.standard config format options).document uri text = .ok document)
    (diagnostic : Diagnostic) (member : diagnostic ∈ document.context.diagnostics) :
    diagnostic.Ordinary := by
  rcases standard_reports read member with aboutLine | ⟨written, problem⟩
  · exact aboutLine.ordinary
  · exact Parse.walk_ordinary _ _ _ _ problem

end CobolAnalysis
