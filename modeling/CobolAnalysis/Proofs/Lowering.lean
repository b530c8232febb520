/-
Places moved down.

Everything that is known about a document moves down by the same number of lines if so many lines
are put before it. Moved down, a context is what recording the places that were moved down gives.
-/

import CobolAnalysis.Proofs.Merging

namespace CobolAnalysis

def Position.lowered (lines : Nat) (position : Position) : Position :=
  { position with line := position.line + lines }

def Span.lowered (lines : Nat) (span : Span) : Span :=
  ⟨span.start.lowered lines, span.stop.lowered lines⟩

def Location.lowered (lines : Nat) (location : Location) : Location :=
  { location with span := location.span.lowered lines }

def Related.lowered (lines : Nat) (related : Related) : Related :=
  { related with location := related.location.lowered lines }

def Diagnostic.lowered (lines : Nat) (diagnostic : Diagnostic) : Diagnostic :=
  { diagnostic with
    location := diagnostic.location.lowered lines
    related := diagnostic.related.map (Related.lowered lines) }

/-! ### Symbols -/

namespace OrderedSet

def lowered (lines : Nat) (places : OrderedSet Location) : OrderedSet Location :=
  .ofList (places.toList.map (Location.lowered lines))

theorem mem_lowered (lines : Nat) (places : OrderedSet Location) (location : Location) :
    location ∈ places.lowered lines ↔ ∃ place ∈ places, place.lowered lines = location := by
  unfold lowered
  rw [mem_ofList, List.mem_map]
  rfl

theorem lowered_insert (lines : Nat) (places : OrderedSet Location) (place : Location) :
    (places.insert place).lowered lines = (places.lowered lines).insert (place.lowered lines) := by
  apply eq_of_mem_iff
  intro location
  rw [mem_lowered, mem_insert, mem_lowered]
  simp only [mem_insert, or_and_right, exists_or, exists_eq_left]
  exact or_congr_left eq_comm

end OrderedSet

def Occurrences.lowered (lines : Nat) (found : Occurrences) : Occurrences :=
  ⟨found.definitions.lowered lines, found.usages.lowered lines⟩

theorem Occurrences.lowered_define (lines : Nat) (found : Occurrences) (location : Location) :
    (found.define location).lowered lines =
      (found.lowered lines).define (location.lowered lines) :=
  congrArg (Occurrences.mk · _) (OrderedSet.lowered_insert lines found.definitions location)

theorem Occurrences.lowered_use (lines : Nat) (found : Occurrences) (location : Location) :
    (found.use location).lowered lines = (found.lowered lines).use (location.lowered lines) :=
  congrArg (Occurrences.mk _) (OrderedSet.lowered_insert lines found.usages location)

/-! ### Contexts -/

namespace Context

def lowered (lines : Nat) (context : Context) : Context :=
  ⟨context.symbols.mapValues (Occurrences.lowered lines),
    context.diagnostics.map (Diagnostic.lowered lines)⟩

theorem lowered_record (lines : Nat) (context : Context) (key : SymbolKey)
    {change moved : Occurrences → Occurrences}
    (same : ∀ found, (change found).lowered lines = moved (found.lowered lines)) :
    (context.record key change).lowered lines = (context.lowered lines).record key moved := by
  refine congrArg (Context.mk · _) (Table.mapValues_alter _ _ ?_)
  intro found
  cases found with
  | none => exact same .none
  | some found => exact same found

theorem lowered_define (lines : Nat) (context : Context) (kind : SymbolKind) (written : List Char)
    (location : Location) :
    (context.define kind written location).lowered lines =
      (context.lowered lines).define kind written (location.lowered lines) :=
  context.lowered_record lines _ fun found => found.lowered_define lines location

theorem lowered_use (lines : Nat) (context : Context) (kind : SymbolKind) (written : List Char)
    (location : Location) :
    (context.use kind written location).lowered lines =
      (context.lowered lines).use kind written (location.lowered lines) :=
  context.lowered_record lines _ fun found => found.lowered_use lines location

theorem lowered_report (lines : Nat) (context : Context) (diagnostic : Diagnostic) :
    (context.report diagnostic).lowered lines =
      (context.lowered lines).report (diagnostic.lowered lines) :=
  congrArg (Context.mk _) List.map_append

end Context

end CobolAnalysis
