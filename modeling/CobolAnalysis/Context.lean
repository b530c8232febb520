/-
What is known about a document: its symbols and its problems.

A symbol is a kind and a name in capitals, with the set of places that define it
and the set of places that use it. Symbols keep the order in which they were
first mentioned. Merging unites the two sets of each symbol and appends the
problems of the second context to those of the first, so the empty context is
neutral; it is what a copybook that cannot be analyzed contributes.
-/

import CobolAnalysis.Diagnostic
import CobolAnalysis.LogicalName
import CobolAnalysis.Table
import CobolAnalysis.Text.LetterCase

namespace CobolAnalysis

inductive SymbolKind where
  | dataItem
  | paragraph
  | procedureSection
  | copybook
  deriving DecidableEq, Inhabited

namespace SymbolKind

def label : SymbolKind → String
  | dataItem => "variable"
  | paragraph => "paragraph"
  | procedureSection => "section"
  | copybook => "copybook"

end SymbolKind

structure SymbolKey where
  kind : SymbolKind
  name : List Char
  deriving DecidableEq, Inhabited

namespace SymbolKey

def ofWritten (kind : SymbolKind) (written : List Char) : SymbolKey := ⟨kind, Text.upper written⟩

end SymbolKey

/-- Where a symbol is defined and where it is used. -/
structure Occurrences where
  definitions : OrderedSet Location
  usages : OrderedSet Location
  deriving DecidableEq, Inhabited

namespace Occurrences

def none : Occurrences := ⟨.empty, .empty⟩

def define (found : Occurrences) (location : Location) : Occurrences :=
  { found with definitions := found.definitions.insert location }

def use (found : Occurrences) (location : Location) : Occurrences :=
  { found with usages := found.usages.insert location }

def union (left right : Occurrences) : Occurrences :=
  ⟨left.definitions.union right.definitions, left.usages.union right.usages⟩

/-- Definitions in order, then usages in order. -/
def all (found : Occurrences) : List Location := found.definitions.toList ++ found.usages.toList

end Occurrences

structure Context where
  symbols : Table SymbolKey Occurrences
  diagnostics : List Diagnostic
  deriving Inhabited

namespace Context

def empty : Context := ⟨.empty, []⟩

def isEmpty (context : Context) : Bool := context.symbols.isEmpty && context.diagnostics.isEmpty

/-! ### Recording -/

def ofDiagnostics (diagnostics : List Diagnostic) : Context := ⟨.empty, diagnostics⟩

def report (context : Context) (diagnostic : Diagnostic) : Context :=
  { context with diagnostics := context.diagnostics ++ [diagnostic] }

def record (context : Context) (key : SymbolKey) (change : Occurrences → Occurrences) : Context :=
  { context with symbols := context.symbols.alter key fun found => change (found.getD .none) }

def define (context : Context) (kind : SymbolKind) (written : List Char) (location : Location) :
    Context :=
  context.record (.ofWritten kind written) fun found => found.define location

def use (context : Context) (kind : SymbolKind) (written : List Char) (location : Location) :
    Context :=
  context.record (.ofWritten kind written) fun found => found.use location

/-! ### Merging -/

def absorb (context : Context) (entries : List (SymbolKey × Occurrences)) : Context :=
  entries.foldl (fun merged entry => merged.record entry.1 fun found => found.union entry.2) context

def merge (left right : Context) : Context :=
  let merged := left.absorb right.symbols.entries
  { merged with diagnostics := left.diagnostics ++ right.diagnostics }

def mergeAll (contexts : List Context) : Context := contexts.foldl merge empty

/-! ### Questions -/

def symbol? (context : Context) (kind : SymbolKind) (written : List Char) : Option Occurrences :=
  context.symbols.get? (.ofWritten kind written)

/-- Every symbol of that name, whatever its kind, in order of first mention. -/
def lookup (context : Context) (written : List Char) : List (SymbolKey × Occurrences) :=
  context.symbols.entries.filter fun entry => entry.1.name == Text.upper written

/-- The earliest mentioned symbol with an occurrence in `uri` that covers the position. -/
def symbolAt? (context : Context) (uri : String) (position : Position) :
    Option (SymbolKey × Occurrences) :=
  context.symbols.entries.find? fun entry =>
    entry.2.all.any fun location => location.covers uri position

/-- Names of one kind that have a definition, in increasing order. -/
def definedNames (context : Context) (kind : SymbolKind) : List (List Char) :=
  let defined := context.symbols.entries.filter fun entry =>
    entry.1.kind == kind && !entry.2.definitions.isEmpty
  Sorting.sort (defined.map fun entry => entry.1.name)

def withoutDiagnostics (context : Context) : Context := { context with diagnostics := [] }

/-- The same symbols with the same occurrences, in any order. -/
def sameSymbols (left right : Context) : Bool :=
  left.symbols.size == right.symbols.size &&
    left.symbols.entries.all fun entry => right.symbols.get? entry.1 == some entry.2

/-- The same symbols in any order, and the same problems in the same order. -/
def same (left right : Context) : Bool :=
  left.sameSymbols right && left.diagnostics == right.diagnostics

end Context

end CobolAnalysis
