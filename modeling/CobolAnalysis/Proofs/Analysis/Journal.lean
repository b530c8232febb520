/-
What an analysis notes about its requests is what it asks for.

An exchange can keep a journal of every name that is asked for, next to its own state.
An analysis does not notice the journal, and at its end the journal holds just the names
of the requests it has noted, in order.
-/

import CobolAnalysis.Analysis.Document

namespace CobolAnalysis

open Parse (Reference)

variable {ω τ : Type}

namespace Exchange

def journaled (exchange : Exchange ω τ) : Exchange (ω × List LogicalName) τ where
  cancelled := exchange.cancelled.within
    { get := Prod.fst
      set := fun value state => (value, state.2)
      get_set := fun _ _ => rfl
      set_get := fun _ => rfl
      set_set := fun _ _ _ => rfl }
  request := fun name state => (exchange.request name state.1).map fun answer =>
    (answer.1, answer.2, state.2 ++ [name])
  await := fun ticket state =>
    ((exchange.await ticket state.1).1, (exchange.await ticket state.1).2, state.2)

end Exchange

def Ledger.journaled (ledger : Ledger ω) : Ledger (ω × List LogicalName) :=
  ⟨(ledger.world, ledger.requests.map Request.name), ledger.claimed, ledger.requests⟩

namespace Analyzer

variable (analyzer : Analyzer ω τ)

def journaled : Analyzer (ω × List LogicalName) τ :=
  ⟨analyzer.reading, analyzer.config, analyzer.exchange.journaled⟩

theorem plan_journaled (chain : List LogicalName) (reference : Reference) (ledger : Ledger ω) :
    analyzer.journaled.plan chain reference ledger.journaled =
      (analyzer.plan chain reference ledger).map fun result =>
        (result.1, result.2.journaled) := by
  have sameCheck : analyzer.journaled.isRepeated ledger.journaled reference.name =
      analyzer.isRepeated ledger reference.name := rfl
  have sameFlag : analyzer.journaled.exchange.cancelled.get
      (ledger.journaled.claim reference.name).world =
        analyzer.exchange.cancelled.get (ledger.claim reference.name).world := rfl
  unfold plan ask
  rw [sameCheck, sameFlag]
  by_cases circular : chain.contains reference.name
  · rw [if_pos circular, if_pos circular]
    rfl
  · rw [if_neg circular, if_neg circular]
    by_cases again : analyzer.isRepeated ledger reference.name
    · rw [if_pos again, if_pos again]
      rfl
    · rw [if_neg again, if_neg again]
      by_cases cancelled : analyzer.exchange.cancelled.get (ledger.claim reference.name).world
      · rw [if_pos cancelled, if_pos cancelled]
        rfl
      · rw [if_neg cancelled, if_neg cancelled]
        change ((analyzer.exchange.request reference.name ledger.world).map _).map _ =
          ((analyzer.exchange.request reference.name ledger.world).map _).map _
        cases analyzer.exchange.request reference.name ledger.world with
        | none => rfl
        | some answer =>
            have noted : (ledger.requests ++ [Request.mk chain reference.name]).map Request.name =
                ledger.requests.map Request.name ++ [reference.name] := List.map_append
            simp only [Option.map_some, Ledger.journaled, Ledger.asked, Ledger.claim, noted]

theorem planAll_journaled (chain : List LogicalName) (references : List Reference)
    (ledger : Ledger ω) :
    analyzer.journaled.planAll chain references ledger.journaled =
      (analyzer.planAll chain references ledger).map fun result =>
        (result.1, result.2.journaled) := by
  induction references generalizing ledger with
  | nil => rfl
  | cons reference rest ih =>
      unfold planAll
      rw [plan_journaled]
      cases analyzer.plan chain reference ledger with
      | none => rfl
      | some planned =>
          simp only [Option.map_some]
          rw [ih]
          cases analyzer.planAll chain rest planned.2 with
          | none => rfl
          | some others => rfl

theorem awaitAll_journaled (planned : List (Planned τ)) (ledger : Ledger ω) :
    analyzer.journaled.awaitAll planned ledger.journaled =
      ((analyzer.awaitAll planned ledger).1, (analyzer.awaitAll planned ledger).2.journaled) := by
  induction planned generalizing ledger with
  | nil => rfl
  | cons entry rest ih =>
      cases entry with
      | refused reference refusal =>
          unfold awaitAll
          rw [ih]
      | «repeated» reference =>
          unfold awaitAll
          rw [ih]
      | pending reference ticket =>
          have moved : ledger.journaled.moved
              (analyzer.journaled.exchange.await ticket ledger.journaled.world).2 =
                (ledger.moved (analyzer.exchange.await ticket ledger.world).2).journaled := rfl
          unfold awaitAll
          simp only
          rw [moved, ih]
          rfl

theorem includeAll_journaled (reading : Reading)
    (follow : LogicalName → List Reference → Ledger ω → Option (Inclusions × Ledger ω))
    (journaling : LogicalName → List Reference → Ledger (ω × List LogicalName) →
      Option (Inclusions × Ledger (ω × List LogicalName)))
    (followed : ∀ name references ledger, journaling name references ledger.journaled =
      (follow name references ledger).map fun result => (result.1, result.2.journaled))
    (settled : List Settled) (ledger : Ledger ω) :
    includeAll reading journaling settled ledger.journaled =
      (includeAll reading follow settled ledger).map fun result =>
        (result.1, result.2.journaled) := by
  induction settled generalizing ledger with
  | nil => rfl
  | cons entry rest ih =>
      cases entry with
      | refused reference refusal =>
          unfold includeAll
          rw [ih, Option.map_map, Option.map_map]
          rfl
      | «repeated» reference =>
          unfold includeAll
          rw [ih, Option.map_map, Option.map_map]
          rfl
      | resolved reference content uri =>
          unfold includeAll
          cases reading.document uri content with
          | error error =>
              simp only
              rw [ih, Option.map_map, Option.map_map]
              rfl
          | ok document =>
              simp only
              rw [followed]
              cases follow reference.name document.references ledger with
              | none => rfl
              | some below =>
                  simp only [Option.map_some]
                  rw [ih, Option.map_map, Option.map_map]
                  rfl

/-- A journal makes no difference to what is followed, and grows by what is noted. -/
theorem explore_journaled (deeper : Nat) (chain : List LogicalName) (references : List Reference)
    (ledger : Ledger ω) :
    analyzer.journaled.explore deeper chain references ledger.journaled =
      (analyzer.explore deeper chain references ledger).map fun result =>
        (result.1, result.2.journaled) := by
  induction deeper generalizing chain references ledger with
  | zero => rfl
  | succ deeper ih =>
      unfold explore
      rw [planAll_journaled]
      cases analyzer.planAll chain references ledger with
      | none => rfl
      | some planned =>
          simp only [Option.map_some]
          rw [awaitAll_journaled]
          exact includeAll_journaled analyzer.reading _ _
            (fun name references ledger => ih (chain ++ [name]) references ledger) _ _

theorem document_journaled (uri : String) (text : List Char) (world : ω) :
    analyzer.journaled.document uri text (world, []) =
      (analyzer.document uri text world).map fun outcome =>
        ⟨outcome.context, outcome.requests, outcome.world,
          outcome.requests.map Request.name⟩ := by
  cases read : analyzer.reading.document uri text with
  | error error =>
      have there : analyzer.journaled.reading.document uri text = .error error := read
      simp only [document, there, read]
      rfl
  | ok parsed =>
      have there : analyzer.journaled.reading.document uri text = .ok parsed := read
      have explored : analyzer.journaled.explore analyzer.journaled.config.maxDepth []
          parsed.references (.start (world, [])) = _ :=
        analyzer.explore_journaled analyzer.config.maxDepth [] parsed.references (.start world)
      simp only [document, there, read]
      rw [explored, Option.map_map, Option.map_map]
      rfl

end Analyzer

end CobolAnalysis
