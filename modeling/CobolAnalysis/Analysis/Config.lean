/-
Settings of an analysis.

The number of worker threads is not among them. An analysis is modelled as one
worker runs it, taking the references of a document in their order.
-/

import CobolAnalysis.Source.Pipeline
import CobolAnalysis.Text.Elapsed

namespace CobolAnalysis

/-- What happens to a copybook that is referenced more than once. -/
inductive Dedup where
  /-- The first reference brings it in; later ones add nothing. -/
  | shared
  /-- Every reference brings it in anew. -/
  | independent
  deriving DecidableEq, Inhabited

namespace Dedup

def label : Dedup → String
  | shared => "Shared"
  | independent => "Independent"

end Dedup

structure Config where
  /-- How long an answer is waited for. The clock has to reach this far: a deadline that it cannot
  represent is outside the model. -/
  timeout : Text.Elapsed
  /-- How many copybooks may lie inside one another. -/
  maxDepth : Nat
  dedup : Dedup
  debugLinesAsCode : Bool
  deriving DecidableEq

namespace Config

def standard : Config := ⟨.ofSeconds 10, 10, .shared, false⟩

instance : Inhabited Config := ⟨standard⟩

def stage (config : Config) : Source.Stage :=
  .pipeline (Source.Stage.standard config.debugLinesAsCode)

def display (config : Config) : String :=
  "AnalyzerConfig \x7b resolution_timeout: " ++ config.timeout.display ++
    ", max_depth: " ++ toString config.maxDepth ++
    ", dedup: " ++ config.dedup.label ++
    ", worker_threads: Some(1), debug_lines_as_code: " ++ toString config.debugLinesAsCode ++ " \x7d"

end Config

end CobolAnalysis
