/-
Open documents and what is known about them.

Setting the text of a document analyzes it at once, and the result stays until
the next analysis of that document. Every analysis starts uncancelled: a
cancellation reaches the analysis that is running and no later one.
-/

import CobolAnalysis.Analysis.Document
import CobolAnalysis.Query.Definition
import CobolAnalysis.Query.Hover
import CobolAnalysis.Query.Mention

namespace CobolAnalysis

/-- An order in which all items of a list are visited. -/
structure Visit (α : Type) where
  arrange : List α → List α
  complete : ∀ items, (arrange items).Perm items

def Visit.asHeld {α : Type} : Visit α := ⟨id, fun _ => List.Perm.refl _⟩

structure OpenDocument where
  text : List Char
  context : Context

structure Host (ω : Type) where
  documents : Table String OpenDocument
  world : ω

namespace Host

variable {ω τ : Type}

def ofWorld (world : ω) : Host ω := ⟨.empty, world⟩

/-! ### Changing -/

def analyze (analyzer : Analyzer ω τ) (host : Host ω) (uri : String) (text : List Char) :
    Option (Host ω) :=
  (analyzer.document uri text (analyzer.exchange.cancelled.set false host.world)).map
    fun outcome => ⟨host.documents.insert uri ⟨text, outcome.context⟩, outcome.world⟩

def analyzeAll (analyzer : Analyzer ω τ) (host : Host ω) :
    List (String × OpenDocument) → Option (Host ω)
  | [] => some host
  | (uri, document) :: rest =>
      match host.analyze analyzer uri document.text with
      | none => none
      | some changed => changed.analyzeAll analyzer rest

/-- Every open document again, for instance because copybooks have changed. The order in which the
documents are visited is left open. -/
def reanalyze (analyzer : Analyzer ω τ) (host : Host ω)
    (visit : Visit (String × OpenDocument) := .asHeld) : Option (Host ω) :=
  host.analyzeAll analyzer (visit.arrange host.documents.entries)

def close (host : Host ω) (uri : String) : Host ω :=
  { host with documents := host.documents.erase uri }

/-- Reaches the analysis that is running, if one is. -/
def cancel (analyzer : Analyzer ω τ) (host : Host ω) : Host ω :=
  { host with world := analyzer.exchange.cancelled.set true host.world }

/-! ### Questions -/

def isOpen (host : Host ω) (uri : String) : Bool := host.documents.contains uri

def size (host : Host ω) : Nat := host.documents.size

def context? (host : Host ω) (uri : String) : Option Context :=
  (host.documents.get? uri).map OpenDocument.context

/-- None for a document that is not open. -/
def diagnostics (host : Host ω) (uri : String) : List Diagnostic :=
  (host.context? uri).elim [] Context.diagnostics

def cursor? (host : Host ω) (uri : String) (position : Position) : Option Query.Cursor :=
  (host.documents.get? uri).map fun document => ⟨uri, document.text, document.context, position⟩

def hover? (host : Host ω) (uri : String) (position : Position) : Option Query.Hover :=
  (host.cursor? uri position).bind Query.Cursor.hover?

def definitions (host : Host ω) (uri : String) (position : Position) : List Query.Target :=
  (host.cursor? uri position).elim [] Query.Cursor.definitions

def mentions (host : Host ω) (uri : String) (position : Position) (withDefinitions : Bool) :
    Query.Mentions :=
  (host.cursor? uri position).elim .none fun cursor => cursor.mentions withDefinitions

end Host

end CobolAnalysis
