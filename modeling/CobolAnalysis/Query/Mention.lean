/-
Every recorded occurrence of the symbols under the cursor, symbol by symbol: the
definitions first, if they are asked for, and then the usages.
-/

import CobolAnalysis.Query.Cursor

namespace CobolAnalysis.Query

structure Mention where
  location : Location
  isDefinition : Bool
  kind : SymbolKind
  deriving DecidableEq

structure Mentions where
  found : List Mention
  withDefinitions : Bool
  deriving DecidableEq

namespace Mentions

/-- The answer for a document that is not open. -/
def none : Mentions := ⟨[], false⟩

end Mentions

def mentionsOf (withDefinitions : Bool) (symbol : SymbolKey × Occurrences) : List Mention :=
  (if withDefinitions then
      symbol.2.definitions.toList.map fun location => ⟨location, true, symbol.1.kind⟩
    else []) ++
  symbol.2.usages.toList.map fun location => ⟨location, false, symbol.1.kind⟩

def Cursor.mentions (cursor : Cursor) (withDefinitions : Bool) : Mentions :=
  ⟨cursor.symbols.flatMap (mentionsOf withDefinitions), withDefinitions⟩

end CobolAnalysis.Query
