/-
Where the symbols under the cursor are defined. On a COPY statement that is the
start of the copybook.
-/

import CobolAnalysis.Query.Cursor

namespace CobolAnalysis.Query

structure Target where
  location : Location
  kind : SymbolKind
  name : List Char
  deriving DecidableEq

def targetsOf (symbol : SymbolKey × Occurrences) : List Target :=
  symbol.2.definitions.toList.map fun location => ⟨location, symbol.1.kind, symbol.1.name⟩

/-- Symbol by symbol, and the definitions of each in source order. -/
def Cursor.definitions (cursor : Cursor) : List Target := cursor.symbols.flatMap targetsOf

end CobolAnalysis.Query
