/-
A description of the symbol under the cursor, in Markdown: its kind and name,
where it is defined, and how often it is used.
-/

import CobolAnalysis.Query.Cursor

namespace CobolAnalysis.Query

structure Hover where
  contents : String
  name : List Char
  kind : SymbolKind
  /-- The occurrence under the cursor, unless the symbol was found by its name. -/
  span : Option Span
  deriving DecidableEq

namespace Hover

def heading (key : SymbolKey) : String :=
  "**" ++ key.kind.label ++ "** `" ++ String.ofList key.name ++ "`"

def definitionItem (location : Location) : String := "\n- `" ++ location.display ++ "`"

def definitionText (definitions : List Location) : String :=
  if definitions.isEmpty then "\n\nNo definition found"
  else "\n\nDefined at:" ++ String.join (definitions.map definitionItem)

/-- Nothing is said of a symbol that is never used. -/
def usageText (count : Nat) : String :=
  match count with
  | 0 => ""
  | 1 => "\n\n1 usage"
  | many => "\n\n" ++ toString many ++ " usages"

def describe (key : SymbolKey) (found : Occurrences) : String :=
  heading key ++ definitionText found.definitions.toList ++ usageText found.usages.size

def ofSymbol (cursor : Cursor) (key : SymbolKey) (found : Occurrences) : Hover where
  contents := describe key found
  name := key.name
  kind := key.kind
  span := (found.all.find? cursor.touches).map Location.span

end Hover

/-- Only the first symbol is described. -/
def Cursor.hover? (cursor : Cursor) : Option Hover :=
  cursor.symbols.head?.map fun symbol => Hover.ofSymbol cursor symbol.1 symbol.2

end CobolAnalysis.Query
