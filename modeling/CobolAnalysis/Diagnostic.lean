/-
Reported problems.

Reading, parsing and copybook resolution never give up on a document because of
a problem in it: they report it here and carry on. A problem has a place, a
severity, usually a code, and places related to it in the order they were added.
-/

import CobolAnalysis.Position

namespace CobolAnalysis

inductive Severity where
  | error
  | warning
  | info
  | hint
  deriving DecidableEq, Inhabited

namespace Severity

/-- The rank an editor shows, the gravest first. -/
def rank : Severity → Nat
  | error => 1
  | warning => 2
  | info => 3
  | hint => 4

end Severity

structure Related where
  location : Location
  message : String
  deriving DecidableEq, Inhabited

structure Diagnostic where
  location : Location
  severity : Severity
  code : Option String
  message : String
  related : List Related
  deriving DecidableEq, Inhabited

namespace Diagnostic

def error (location : Location) (code message : String) : Diagnostic :=
  ⟨location, .error, some code, message, []⟩

def warning (location : Location) (code message : String) : Diagnostic :=
  ⟨location, .warning, some code, message, []⟩

def info (location : Location) (code message : String) : Diagnostic :=
  ⟨location, .info, some code, message, []⟩

def withSpan (diagnostic : Diagnostic) (span : Span) : Diagnostic :=
  { diagnostic with location := { diagnostic.location with span := span } }

def withRelated (diagnostic : Diagnostic) (related : Related) : Diagnostic :=
  { diagnostic with related := diagnostic.related ++ [related] }

def isError (diagnostic : Diagnostic) : Bool := diagnostic.severity == .error

/-! ### Codes

From E0001 the source itself is at fault, from E0101 the resolution of a
copybook; W codes are warnings. -/

namespace Code

def unreadableSource : String := "E0001"
def missingCopybookName : String := "E0002"
def copybookNotFound : String := "E0101"
def copybookTimedOut : String := "E0102"
def copybookCancelled : String := "E0103"
def copybookBroken : String := "E0104"
def circularCopybook : String := "E0105"
def copybookTooDeep : String := "E0106"
def lineTooLong : String := "W0001"
def orphanContinuation : String := "W0002"
def invalidLevel : String := "W0003"
def unexpectedCharacter : String := "W0004"

end Code

end Diagnostic

/-- A value together with the problems met while it was computed, in order. -/
structure Diagnosed (α : Type) where
  value : α
  diagnostics : List Diagnostic
  deriving DecidableEq

namespace Diagnosed

def clean {α : Type} (value : α) : Diagnosed α := ⟨value, []⟩

/-- The next computation on the value; its problems come after the earlier ones. -/
def andThen {α β : Type} (first : Diagnosed α) (next : α → Diagnosed β) : Diagnosed β :=
  let second := next first.value
  ⟨second.value, first.diagnostics ++ second.diagnostics⟩

def hasDiagnostics {α : Type} (result : Diagnosed α) : Bool := !result.diagnostics.isEmpty

end Diagnosed

end CobolAnalysis
