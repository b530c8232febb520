/-
What the inclusions of an analysis account for.

Whatever the answers are, each reference of each document that was read has one entry
in the inclusions, and an entry that brought nothing in says why. Only references of
documents that were read have entries.
-/

import CobolAnalysis.Analysis.Exploration
import Mathlib.Data.List.Forall2

namespace CobolAnalysis

open Parse (Reference)

/-- The way to a reference may grow longer by its copybook. -/
structure Admits (config : Config) (chain : List LogicalName) (name : LogicalName) : Prop where
  fresh : name ∉ chain
  room : chain.length < config.maxDepth

/-- There is cause for the refusal of a reference at the end of `chain`. -/
def Refusal.Warranted (reading : Reading) (config : Config) (chain : List LogicalName)
    (name : LogicalName) : Refusal → Prop
  | circular path => name ∈ chain ∧ path = chain ++ [name]
  | tooDeep limit => name ∉ chain ∧ chain.length = config.maxDepth ∧ limit = config.maxDepth
  | cancelled => Admits config chain name
  | notFound => Admits config chain name
  | timedOut timeout => Admits config chain name ∧ timeout = config.timeout
  | broken error =>
      Admits config chain name ∧ ∃ uri text, reading.document uri text = .error error

/-- The inclusions have one entry for each of the references, in their order, and so on below every
copybook that was read. -/
inductive Accounts (reading : Reading) (config : Config) :
    List LogicalName → List Reference → Inclusions → Prop where
  | none (chain : List LogicalName) : Accounts reading config chain [] .none
  | refused {chain references rest} {reference : Reference} {refusal : Refusal}
      (warranted : refusal.Warranted reading config chain reference.name)
      (others : Accounts reading config chain references rest) :
      Accounts reading config chain (reference :: references) (.refused reference refusal rest)
  | repeated {chain references rest} {reference : Reference} (shared : config.dedup = .shared)
      (admitted : Admits config chain reference.name)
      (others : Accounts reading config chain references rest) :
      Accounts reading config chain (reference :: references) (.repeated reference rest)
  | included {chain references below rest} {reference : Reference} {uri : String}
      {text : List Char} {document : Parse.ParsedDocument}
      (admitted : Admits config chain reference.name)
      (read : reading.document uri text = .ok document)
      (inside : Accounts reading config (chain ++ [reference.name]) document.references below)
      (others : Accounts reading config chain references rest) :
      Accounts reading config chain (reference :: references)
        (.included reference uri document.context below rest)

/-- The entry belongs to the reference, and fits what the checks make of it. -/
def Planned.Fits {τ : Type} (reading : Reading) (config : Config) (chain : List LogicalName)
    (reference : Reference) : Planned τ → Prop
  | refused of refusal =>
      of = reference ∧ refusal.Warranted reading config chain reference.name
  | repeated of => of = reference ∧ Admits config chain reference.name ∧ config.dedup = .shared
  | pending of _ => of = reference ∧ Admits config chain reference.name

def Settled.Fits (reading : Reading) (config : Config) (chain : List LogicalName)
    (reference : Reference) : Settled → Prop
  | refused of refusal =>
      of = reference ∧ refusal.Warranted reading config chain reference.name
  | repeated of => of = reference ∧ Admits config chain reference.name ∧ config.dedup = .shared
  | resolved of _ _ => of = reference ∧ Admits config chain reference.name

namespace Analyzer

variable {ω τ : Type} {analyzer : Analyzer ω τ}

theorem plan_fits {chain : List LogicalName} (room : chain.length < analyzer.config.maxDepth)
    {reference : Reference} {ledger after : Ledger ω} {planned : Planned τ}
    (went : analyzer.plan chain reference ledger = some (planned, after)) :
    planned.Fits analyzer.reading analyzer.config chain reference := by
  unfold plan at went
  by_cases circular : reference.name ∈ chain
  · rw [if_pos (List.contains_iff_mem.mpr circular)] at went
    cases went
    exact ⟨rfl, circular, rfl⟩
  · have admitted : Admits analyzer.config chain reference.name := ⟨circular, room⟩
    rw [if_neg fun there => circular (List.contains_iff_mem.mp there)] at went
    by_cases again : analyzer.isRepeated ledger reference.name
    · have shared : analyzer.config.dedup = .shared := by
        unfold isRepeated at again
        rw [Bool.and_eq_true, beq_iff_eq] at again
        exact again.1
      rw [if_pos again] at went
      cases went
      exact ⟨rfl, admitted, shared⟩
    · rw [if_neg again] at went
      unfold ask at went
      by_cases cancelled : analyzer.exchange.cancelled.get (ledger.claim reference.name).world
      · rw [if_pos cancelled] at went
        cases went
        exact ⟨rfl, admitted⟩
      · rw [if_neg cancelled] at went
        obtain ⟨answer, _, same⟩ := Option.map_eq_some_iff.mp went
        cases same
        exact ⟨rfl, admitted⟩

theorem planAll_fits {chain : List LogicalName} (room : chain.length < analyzer.config.maxDepth)
    {references : List Reference} {ledger after : Ledger ω} {planned : List (Planned τ)}
    (went : analyzer.planAll chain references ledger = some (planned, after)) :
    List.Forall₂ (Planned.Fits analyzer.reading analyzer.config chain) references planned := by
  induction references generalizing ledger planned with
  | nil =>
      cases went
      exact .nil
  | cons reference rest ih =>
      unfold planAll at went
      cases first : analyzer.plan chain reference ledger with
      | none =>
          rw [first] at went
          cases went
      | some step =>
          obtain ⟨entry, between⟩ := step
          rw [first] at went
          cases second : analyzer.planAll chain rest between with
          | none =>
              simp only [second] at went
              cases went
          | some others =>
              simp only [second] at went
              cases went
              exact .cons (plan_fits room first) (ih second)

theorem settle_fits {chain : List LogicalName} {reference : Reference}
    (admitted : Admits analyzer.config chain reference.name) (resolution : Resolution) :
    (analyzer.settle reference resolution).Fits analyzer.reading analyzer.config chain
      reference := by
  cases resolution with
  | resolved content uri => exact ⟨rfl, admitted⟩
  | notFound => exact ⟨rfl, admitted⟩
  | timedOut => exact ⟨rfl, admitted, rfl⟩
  | cancelled => exact ⟨rfl, admitted⟩

theorem awaitAll_fits {chain : List LogicalName} {references : List Reference}
    {planned : List (Planned τ)}
    (fits : List.Forall₂ (Planned.Fits analyzer.reading analyzer.config chain) references planned)
    (ledger : Ledger ω) :
    List.Forall₂ (Settled.Fits analyzer.reading analyzer.config chain) references
      (analyzer.awaitAll planned ledger).1 := by
  induction fits generalizing ledger with
  | nil => exact .nil
  | @cons reference entry references planned first others ih =>
      cases entry with
      | refused of refusal => exact .cons first (ih ledger)
      | repeated of => exact .cons first (ih ledger)
      | pending of ticket =>
          obtain ⟨rfl, admitted⟩ := first
          exact .cons (settle_fits admitted _) (ih _)

theorem includeAll_accounts {reading : Reading} {config : Config} {chain : List LogicalName}
    {follow : LogicalName → List Reference → Ledger ω → Option (Inclusions × Ledger ω)}
    (followed : ∀ name references ledger below after,
      follow name references ledger = some (below, after) →
        Accounts reading config (chain ++ [name]) references below)
    {references : List Reference} {settled : List Settled}
    (fits : List.Forall₂ (Settled.Fits reading config chain) references settled)
    {ledger after : Ledger ω} {tree : Inclusions}
    (went : includeAll reading follow settled ledger = some (tree, after)) :
    Accounts reading config chain references tree := by
  induction fits generalizing ledger tree with
  | nil =>
      cases went
      exact .none chain
  | @cons reference entry references settled first others ih =>
      cases entry with
      | refused of refusal =>
          obtain ⟨rfl, warranted⟩ := first
          obtain ⟨⟨rest, last⟩, included, same⟩ := Option.map_eq_some_iff.mp went
          cases same
          exact .refused warranted (ih included)
      | repeated of =>
          obtain ⟨rfl, admitted, shared⟩ := first
          obtain ⟨⟨rest, last⟩, included, same⟩ := Option.map_eq_some_iff.mp went
          cases same
          exact .repeated shared admitted (ih included)
      | resolved of text uri =>
          obtain ⟨rfl, admitted⟩ := first
          unfold includeAll at went
          cases read : reading.document uri text with
          | error error =>
              simp only [read] at went
              obtain ⟨⟨rest, last⟩, included, same⟩ := Option.map_eq_some_iff.mp went
              cases same
              exact .refused ⟨admitted, uri, text, read⟩ (ih included)
          | ok document =>
              simp only [read] at went
              cases below : follow of.name document.references ledger with
              | none =>
                  simp only [below] at went
                  cases went
              | some inside =>
                  simp only [below] at went
                  obtain ⟨⟨rest, last⟩, included, same⟩ := Option.map_eq_some_iff.mp went
                  cases same
                  exact .included admitted read (followed _ _ _ _ _ below) (ih included)

theorem refusalAtLimit_warranted {chain : List LogicalName}
    (full : chain.length = analyzer.config.maxDepth) (reference : Reference) :
    (analyzer.refusalAtLimit chain reference).Warranted analyzer.reading analyzer.config chain
      reference.name := by
  unfold refusalAtLimit
  by_cases circular : reference.name ∈ chain
  · rw [if_pos (List.contains_iff_mem.mpr circular)]
    exact ⟨circular, rfl⟩
  · rw [if_neg fun there => circular (List.contains_iff_mem.mp there)]
    exact ⟨circular, full, rfl⟩

/-- Whatever the exchange answers, the inclusions account for the references they come from. -/
theorem explore_accounts {deeper : Nat} {chain : List LogicalName}
    (depth : chain.length + deeper = analyzer.config.maxDepth) {references : List Reference}
    {ledger after : Ledger ω} {tree : Inclusions}
    (went : analyzer.explore deeper chain references ledger = some (tree, after)) :
    Accounts analyzer.reading analyzer.config chain references tree := by
  induction deeper generalizing chain references ledger after tree with
  | zero =>
      cases went
      induction references with
      | nil => exact .none chain
      | cons reference rest ih =>
          exact .refused (refusalAtLimit_warranted depth reference) ih
  | succ deeper ih =>
      unfold explore at went
      cases plans : analyzer.planAll chain references ledger with
      | none =>
          rw [plans] at went
          cases went
      | some asked =>
          obtain ⟨planned, between⟩ := asked
          rw [plans] at went
          -- The chain and the steps that are left always add up to the nesting depth.
          have room : chain.length < analyzer.config.maxDepth := by omega
          have fits := awaitAll_fits (planAll_fits room plans) between
          refine includeAll_accounts ?_ fits went
          intro name references ledger below after followed
          apply ih ?_ followed
          rw [List.length_append, List.length_singleton]
          omega

end Analyzer

end CobolAnalysis
