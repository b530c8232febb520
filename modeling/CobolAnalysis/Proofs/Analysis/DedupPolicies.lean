/-
What the policy on repetitions makes of the symbols.

Where repetitions are dropped, an analysis knows nothing that it would not know if every
reference brought its copybook in anew, and it knows all of that if nothing is reported to
lie too deep. Otherwise something may be missing: a name may be taken up at the end of a
long way, from where the depth allows nothing further, and the reference at the end of a
shorter way is then dropped as a repetition.
-/

import CobolAnalysis.Proofs.Analysis.Cover
import CobolAnalysis.Proofs.Analysis.SimpleWays

namespace CobolAnalysis

open Parse (Reference)
open Provider (Memory)

namespace Shelf

def under (shelf : Shelf) (policy : Dedup) : Shelf :=
  { shelf with config := { shelf.config with dedup := policy } }

theorem Reaches.under {shelf : Shelf} {first : Dedup} (second : Dedup)
    {references : List Reference} {steps : Nat} {name : LogicalName}
    (reaches : (shelf.under first).Reaches references steps name) :
    (shelf.under second).Reaches references steps name := by
  induction reaches with
  | here member => exact .here member
  | further member found onward ih => exact .further member found ih

theorem mem_survey_independent {shelf : Shelf} {policy : Dedup} {deeper : Nat}
    {chain : List LogicalName} {references : List Reference} {record start : Ledger Unit}
    {brought : Brought}
    (member : brought ∈
      ((shelf.under policy).survey deeper chain references record).1.brought) :
    brought ∈ ((shelf.under .independent).survey deeper [] references start).1.brought := by
  -- The policy has no part in what leads where, and without it every short way is followed.
  obtain ⟨steps, within, reaches, document, found, origin⟩ := reaches_of_mem_survey member
  rw [origin]
  exact mem_survey_of_leads rfl (reaches.under .independent).leads within found

theorem context_unread {shelf : Shelf} {uri : String} {text : List Char} {error : ReadingError}
    (unread : shelf.reading.document uri text = .error error) :
    (shelf.document uri text).context = Analyzer.unreadable uri error := by
  simp only [document, unread]

theorem knows_independent_of_knows (shelf : Shelf) (policy : Dedup) (uri : String)
    (text : List Char) (fact : Fact)
    (known : ((shelf.under policy).document uri text).context.Knows fact) :
    ((shelf.under .independent).document uri text).context.Knows fact := by
  cases read : (shelf.under policy).reading.document uri text with
  | error error =>
      have unread : (shelf.under .independent).reading.document uri text = .error error := read
      rw [context_unread read] at known
      rw [context_unread unread]
      exact known
  | ok root =>
      have there : (shelf.under .independent).reading.document uri text = .ok root := read
      rw [knows_document read] at known
      rw [knows_document there]
      rcases known with own | ⟨brought, member, knows⟩
      · exact Or.inl own
      · exact Or.inr ⟨brought, mem_survey_independent member, knows⟩

theorem knows_of_knows_independent {shelf : Shelf} {policy : Dedup} {uri : String}
    {text : List Char}
    (quiet : ∀ diagnostic ∈ ((shelf.under policy).document uri text).context.diagnostics,
      diagnostic.code ≠ some Diagnostic.Code.copybookTooDeep) (fact : Fact)
    (known : ((shelf.under .independent).document uri text).context.Knows fact) :
    ((shelf.under policy).document uri text).context.Knows fact := by
  cases read : (shelf.under .independent).reading.document uri text with
  | error error =>
      have unread : (shelf.under policy).reading.document uri text = .error error := read
      rw [context_unread read] at known
      rw [context_unread unread]
      exact known
  | ok root =>
      have there : (shelf.under policy).reading.document uri text = .ok root := read
      rw [knows_document read] at known
      rw [knows_document_of_quiet there quiet]
      rcases known with own | ⟨brought, member, knows⟩
      · exact Or.inl own
      · obtain ⟨steps, _, reaches, document, found, origin⟩ := reaches_of_mem_survey member
        rw [origin] at knows
        exact Or.inr ⟨brought.name, document, ⟨steps, reaches.under policy⟩, found, knows⟩

end Shelf

/-- An analysis that drops repetitions knows nothing that one without that policy does not know. If
it reports nothing to lie too deep, both have the same occurrences under every key. -/
theorem policies_agree_of_quiet {σ : Type} (shelf : Shelf) (venue : Venue σ)
    (bus : Bus (Board σ)) (attached : venue.Attached shelf.stock [] bus) (uri : String)
    (text : List Char) :
    ∃ least, ∀ limit, least ≤ limit → ∃ shared independent,
      ((shelf.under .shared).analyzer venue limit).document uri text bus = some shared ∧
        ((shelf.under .independent).analyzer venue limit).document uri text bus =
          some independent ∧
        (∀ fact, shared.context.Knows fact → independent.context.Knows fact) ∧
        ((∀ diagnostic ∈ shared.context.diagnostics,
            diagnostic.code ≠ some Diagnostic.Code.copybookTooDeep) →
          ∀ key, shared.context.symbols.get? key = independent.context.symbols.get? key) := by
  obtain ⟨first, _, once, _⟩ := (shelf.under .shared).document_mirrors attached uri text
  obtain ⟨second, _, anew, _⟩ := (shelf.under .independent).document_mirrors attached uri text
  refine ⟨max first second, fun limit enough => ?_⟩
  refine ⟨_, _, once limit (by omega), anew limit (by omega), ?_, ?_⟩
  · exact shelf.knows_independent_of_knows .shared uri text
  · intro quiet
    apply Context.get?_eq_of_same_facts
    intro fact
    constructor
    · exact shelf.knows_independent_of_knows .shared uri text fact
    · exact Shelf.knows_of_knows_independent quiet fact

section Sample

open Scenario

/-- Nothing lies too deep in the sample, although one of its copybooks asks for itself. -/
theorem sample_policies_agree :
    (Bench.venue Sample.script).Attached Sample.stock []
        (Bench.withMemory Sample.script Sample.stock) ∧
      ∃ least, ∀ limit, least ≤ limit → ∃ shared independent,
        ((Sample.shelf .shared 10).analyzer (Bench.venue Sample.script) limit).document "root"
            Sample.text (Bench.withMemory Sample.script Sample.stock) = some shared ∧
          ((Sample.shelf .independent 10).analyzer (Bench.venue Sample.script) limit).document
            "root" Sample.text (Bench.withMemory Sample.script Sample.stock) =
              some independent ∧
          ∀ key, shared.context.symbols.get? key = independent.context.symbols.get? key := by
  have attached := Sample.attached
  obtain ⟨first, analyzed⟩ := policies_agree_of_quiet (Sample.shelf .shared 10) _ _ attached
    "root" Sample.text
  obtain ⟨second, evaluates⟩ := (Sample.shelf .shared 10).document_evaluates attached "root"
    Sample.text
  refine ⟨attached, max first second, fun limit enough => ?_⟩
  obtain ⟨shared, independent, once, anew, _, agree⟩ := analyzed limit (by omega)
  refine ⟨shared, independent, once, anew, agree ?_⟩
  obtain ⟨context, _⟩ := evaluates limit (by omega) shared once
  rw [context]
  decide +kernel

end Sample

namespace Scenario.Detour

/-! ### A copybook that is lost

The document asks for A and B. From A the way to D leads over C, from B it leads there
directly, and D asks for E. Three copybooks may lie inside one another, so E can only be
had by way of B. -/

def stock : Memory where
  copybooks := .ofList [(⟨['A']⟩, "       COPY C.".toList), (⟨['B']⟩, "       COPY D.".toList),
    (⟨['C']⟩, "       COPY D.".toList), (⟨['D']⟩, "       COPY E.".toList),
    (⟨['E']⟩, "       01 ITEM-E.".toList)]
  silent := []
  requests := 0

def text : List Char := "       COPY A.\n       COPY B.".toList

def shelf : Shelf :=
  let config := { Config.standard with maxDepth := 3 }
  ⟨.standard config .fixed ⟨true, true⟩, config, stock⟩

def item : SymbolKey := .ofWritten .dataItem "ITEM-E".toList

/-- D is taken up by way of A and C, so that E lies too deep; the reference to D in B is dropped. -/
theorem item_lost_when_shared :
    ∃ least, ∀ limit, least ≤ limit → ∃ shared independent,
      ((shelf.under .shared).analyzer (Bench.venue Script.empty) limit).document "root" text
          (Bench.withMemory Script.empty stock) = some shared ∧
        ((shelf.under .independent).analyzer (Bench.venue Script.empty) limit).document "root"
          text (Bench.withMemory Script.empty stock) = some independent ∧
        shared.context.symbols.get? item ≠ independent.context.symbols.get? item := by
  have attached := Bench.attached_unscripted stock
  obtain ⟨first, _, once, _⟩ := (shelf.under .shared).document_mirrors attached "root" text
  obtain ⟨second, _, anew, _⟩ := (shelf.under .independent).document_mirrors attached "root" text
  have lost : ((shelf.under .shared).document "root" text).context.symbols.get? item ≠
      ((shelf.under .independent).document "root" text).context.symbols.get? item := by
    decide +kernel
  refine ⟨max first second, fun limit enough => ?_⟩
  exact ⟨_, _, once limit (by omega), anew limit (by omega), lost⟩

end Scenario.Detour

end CobolAnalysis
