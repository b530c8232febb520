/-
What became of the COPY statements of a document.

Each reference, in order, was refused for some cause, was a repetition of one
settled elsewhere, or brought a copybook in. A copybook that was brought in
carries what it says by itself and, in turn, what became of its own references.
-/

import CobolAnalysis.Analysis.Reading
import CobolAnalysis.Text.Elapsed

namespace CobolAnalysis

open Parse (Reference)

/-- Why a reference brought nothing in. -/
inductive Refusal where
  /-- The copybook is being read already; the path leads from the outermost copybook to it. -/
  | circular (path : List LogicalName)
  | tooDeep (maxDepth : Nat)
  | cancelled
  | notFound
  | timedOut (timeout : Text.Elapsed)
  | broken (error : ReadingError)
  deriving DecidableEq

inductive Inclusions where
  | none
  | refused (reference : Reference) (refusal : Refusal) (rest : Inclusions)
  | repeated (reference : Reference) (rest : Inclusions)
  | included (reference : Reference) (uri : String) (own : Context) (below rest : Inclusions)

end CobolAnalysis
