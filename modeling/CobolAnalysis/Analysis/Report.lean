/-
From what became of the references to what is known about the root document.

A refused reference is reported where it stands. If that is inside an included
copybook, the report is repeated at the COPY statement of the root document that
led there, with the place where it stands as a related place.
-/

import CobolAnalysis.Analysis.Inclusion

namespace CobolAnalysis

open Parse (Reference)

/-- Where references stand, seen from the root document. -/
inductive Site where
  /-- Outside any document: a copybook asked for by name, which is itself the root. -/
  | request
  | root
  /-- In a copybook that this COPY statement of the root document led to. -/
  | nested (copy : Location)
  deriving DecidableEq

namespace Site

/-- Where the references of a copybook stand that a reference at this site brought in. -/
def below (site : Site) (reference : Reference) : Site :=
  match site with
  | request => root
  | root => nested reference.location
  | nested copy => nested copy

def copy? : Site → Option Location
  | request => none
  | root => none
  | nested copy => some copy

end Site

namespace Refusal

def code : Refusal → String
  | circular _ => Diagnostic.Code.circularCopybook
  | tooDeep _ => Diagnostic.Code.copybookTooDeep
  | cancelled => Diagnostic.Code.copybookCancelled
  | notFound => Diagnostic.Code.copybookNotFound
  | timedOut _ => Diagnostic.Code.copybookTimedOut
  | broken _ => Diagnostic.Code.copybookBroken

def displayPath (path : List LogicalName) : String :=
  String.intercalate " -> " (path.map LogicalName.display)

def message (name : LogicalName) : Refusal → String
  | circular path => "Circular copybook inclusion: " ++ displayPath path
  | tooDeep maxDepth =>
      "Copybook " ++ name.display ++ " exceeds the maximum nesting depth of " ++ toString maxDepth
  | cancelled => "Resolution of copybook " ++ name.display ++ " was cancelled"
  | notFound => "Copybook not found: " ++ name.display
  | timedOut timeout =>
      "Copybook " ++ name.display ++ " was not resolved within " ++ timeout.display
  | broken error => "Copybook " ++ name.display ++ " could not be analyzed: " ++ error.message

/-- Being cancelled is no error, and points at no copybook. -/
def diagnostic (reference : Reference) (refusal : Refusal) : Diagnostic :=
  let message := refusal.message reference.name
  match refusal with
  | cancelled => .info reference.location refusal.code message
  | _ =>
      (Diagnostic.error reference.location refusal.code message).withRelated
        ⟨.documentStart reference.name.uri, "copybook " ++ reference.name.display⟩

/-- The diagnostic repeated at the root document's COPY statement. -/
def surfaced (reference : Reference) (copy : Location) (diagnostic : Diagnostic) : Diagnostic :=
  { diagnostic.withRelated
      ⟨reference.location, "COPY " ++ reference.name.display ++ " in an included copybook"⟩ with
    location := copy }

def reports (site : Site) (reference : Reference) (refusal : Refusal) : List Diagnostic :=
  let diagnostic := refusal.diagnostic reference
  diagnostic :: (site.copy?.map fun copy => surfaced reference copy diagnostic).toList

end Refusal

namespace Inclusions

/-- One context for each reference that contributes, in order. -/
def contexts (site : Site) : Inclusions → List Context
  | none => []
  | refused reference refusal rest =>
      .ofDiagnostics (refusal.reports site reference) :: contexts site rest
  | repeated _ rest => contexts site rest
  | included reference uri own below rest =>
      ((contexts (site.below reference) below).foldl Context.merge own).define .copybook
          reference.name.text (.documentStart uri) ::
        contexts site rest

end Inclusions

end CobolAnalysis
