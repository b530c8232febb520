/-
Analyses: of a document that is at hand, and of a copybook asked for by name.

Neither fails. A document that cannot be read has one diagnostic that says so, a
copybook that cannot be had the one its reference would get.
-/

import CobolAnalysis.Analysis.Exploration
import CobolAnalysis.Analysis.Report

namespace CobolAnalysis

open Parse (Reference)

structure Outcome (ω : Type) where
  context : Context
  requests : List Request
  world : ω

namespace Analyzer

variable {ω τ : Type}

/-- What is known of a document that cannot be read. -/
def unreadable (uri : String) (error : ReadingError) : Context :=
  .ofDiagnostics [.error (.documentStart uri) Diagnostic.Code.unreadableSource
    ("Document could not be analyzed: " ++ error.message)]

def document (analyzer : Analyzer ω τ) (uri : String) (text : List Char) (world : ω) :
    Option (Outcome ω) :=
  match analyzer.reading.document uri text with
  | .error error => some ⟨unreadable uri error, [], world⟩
  | .ok document =>
      (analyzer.explore analyzer.config.maxDepth [] document.references (.start world)).map
        fun result =>
          ⟨(result.1.contexts .root).foldl Context.merge document.context, result.2.requests,
            result.2.world⟩

/-- The request for a copybook counts as a reference at the start of that copybook. -/
def requestOf (name : LogicalName) : Reference := ⟨name, .documentStart name.uri⟩

def copybook (analyzer : Analyzer ω τ) (name : LogicalName) (world : ω) : Option (Outcome ω) :=
  (analyzer.explore analyzer.config.maxDepth [] [requestOf name] (.start world)).map
    fun result =>
      ⟨.mergeAll (result.1.contexts .request), result.2.requests, result.2.world⟩

end Analyzer

def Config.analyzerDisplay (config : Config) : String :=
  "CopybookAnalyzer \x7b bus: " ++ (Bus.ofState ()).display ++ ", config: " ++ config.display ++
    ", threads: 1, .. \x7d"

end CobolAnalysis
