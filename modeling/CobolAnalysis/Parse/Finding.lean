/-
What the parser finds in one document, and the document it amounts to.

Findings come in the order in which they are met. Recording them one after the
other gives the context of the document; the COPY statements among them are also
kept as references, in order of appearance.
-/

import CobolAnalysis.Context
import CobolAnalysis.Source.Line

namespace CobolAnalysis.Parse

structure Options where
  /-- Record the targets of PERFORM and GO TO. -/
  collectUsages : Bool
  strictLevels : Bool
  deriving DecidableEq

/-- A COPY statement: the copybook it names, and where the name stands. -/
structure Reference where
  name : LogicalName
  location : Location
  deriving DecidableEq

inductive Finding where
  | problem (diagnostic : Diagnostic)
  | definition (kind : SymbolKind) (written : List Char) (location : Location)
  | usage (kind : SymbolKind) (written : List Char) (location : Location)
  | copy (reference : Reference)
  deriving DecidableEq

namespace Finding

/-- A COPY statement uses the copybook at the place of its name. -/
def record (context : Context) : Finding → Context
  | problem diagnostic => context.report diagnostic
  | definition kind written location => context.define kind written location
  | usage kind written location => context.use kind written location
  | copy reference => context.use .copybook reference.name.text reference.location

def reference? : Finding → Option Reference
  | copy reference => some reference
  | _ => none

end Finding

structure ParsedDocument where
  context : Context
  references : List Reference

namespace ParsedDocument

def ofFindings (findings : List Finding) : ParsedDocument where
  context := findings.foldl Finding.record .empty
  references := findings.filterMap Finding.reference?

end ParsedDocument

inductive ParseError where
  | aborted (uri reason : String)
  deriving DecidableEq

namespace ParseError

def message : ParseError → String
  | aborted uri reason => "parser gave up on " ++ uri ++ ": " ++ reason

end ParseError

abbrev Parser :=
  String → List Char → Source.Format → Options → Except ParseError ParsedDocument

end CobolAnalysis.Parse
