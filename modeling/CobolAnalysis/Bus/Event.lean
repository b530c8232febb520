/-
Events: a request for a copybook, and an answer to one.

An answer counts as found only if it says so and has content; an answer that
claims one without the other is a negative one.
-/

import CobolAnalysis.LogicalName

namespace CobolAnalysis

inductive EventKind where
  | scanRequest
  | fetchResult
  deriving DecidableEq, Inhabited

namespace EventKind

def label : EventKind → String
  | scanRequest => "ScanRequest"
  | fetchResult => "FetchResult"

end EventKind

structure FetchResult where
  name : LogicalName
  content : Option (List Char)
  found : Bool
  /-- Where the copybook was found, if the answering side knows. -/
  uri : Option String
  deriving DecidableEq

namespace FetchResult

def located (name : LogicalName) (content : List Char) : FetchResult :=
  ⟨name, some content, true, none⟩

def missing (name : LogicalName) : FetchResult := ⟨name, none, false, none⟩

def withUri (result : FetchResult) (uri : String) : FetchResult := { result with uri := some uri }

end FetchResult

inductive Event where
  | scan (name : LogicalName)
  | fetch (result : FetchResult)
  deriving DecidableEq

namespace Event

def kind : Event → EventKind
  | scan _ => .scanRequest
  | fetch _ => .fetchResult

def name : Event → LogicalName
  | scan name => name
  | fetch result => result.name

end Event

end CobolAnalysis
