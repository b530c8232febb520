/-
The steps in which an analysis deals with references.

Names are taken up document by document: first all references of a document, in order,
then, for each copybook that it brings in, everything below. One step belongs to each
reference, in this order. Whatever the answers are, the steps account for the names that
were taken up and for what was asked for.
-/

import CobolAnalysis.Analysis.Exploration
import Mathlib.Data.List.Forall2

namespace CobolAnalysis

open Parse (Reference)

/-! ### Steps -/

/-- What the checks before a request make of a reference. -/
inductive Move where
  /-- The reference is on the way to itself, or lies too deep. -/
  | barred
  | repeated
  /-- The name is taken up, but the analysis was cancelled before. -/
  | stopped
  | asked
  deriving DecidableEq

structure Step where
  request : Request
  move : Move

namespace Step

def taken (step : Step) : List LogicalName :=
  match step.move with
  | .barred => []
  | .repeated => []
  | .stopped => [step.request.name]
  | .asked => [step.request.name]

def asked (step : Step) : List Request :=
  match step.move with
  | .barred => []
  | .repeated => []
  | .stopped => []
  | .asked => [step.request]

/-- A name is repeated if it was taken up before, and taken up if it was not. -/
def Fair (claimed : List LogicalName) (step : Step) : Prop :=
  match step.move with
  | .barred => True
  | .repeated => step.request.name ∈ claimed
  | .stopped => step.request.name ∉ claimed
  | .asked => step.request.name ∉ claimed

end Step

def Orderly : List LogicalName → List Step → Prop
  | _, [] => True
  | claimed, step :: rest => step.Fair claimed ∧ Orderly (claimed ++ step.taken) rest

theorem orderly_append {claimed : List LogicalName} {first second : List Step} :
    Orderly claimed (first ++ second) ↔
      Orderly claimed first ∧ Orderly (claimed ++ first.flatMap Step.taken) second := by
  induction first generalizing claimed with
  | nil => simp [Orderly]
  | cons step rest ih => simp [Orderly, ih, and_assoc]

/-- From one ledger the steps lead to the other. -/
structure Ledger.Advances {ω : Type} (before : Ledger ω) (steps : List Step) (after : Ledger ω) :
    Prop where
  orderly : Orderly before.claimed steps
  claimed : after.claimed = before.claimed ++ steps.flatMap Step.taken
  requests : after.requests = before.requests ++ steps.flatMap Step.asked

namespace Ledger.Advances

variable {ω : Type} {before between after : Ledger ω}

theorem refl (ledger : Ledger ω) : ledger.Advances [] ledger :=
  ⟨trivial, (List.append_nil _).symm, (List.append_nil _).symm⟩

theorem single {step : Step} (fair : step.Fair before.claimed)
    (claimed : after.claimed = before.claimed ++ step.taken)
    (requests : after.requests = before.requests ++ step.asked) :
    before.Advances [step] after := by
  refine ⟨⟨fair, trivial⟩, ?_, ?_⟩
  · simpa using claimed
  · simpa using requests

theorem append {first second : List Step} (earlier : before.Advances first between)
    (later : between.Advances second after) : before.Advances (first ++ second) after := by
  constructor
  · rw [orderly_append, ← earlier.claimed]
    exact ⟨earlier.orderly, later.orderly⟩
  · rw [later.claimed, earlier.claimed, List.flatMap_append, List.append_assoc]
  · rw [later.requests, earlier.requests, List.flatMap_append, List.append_assoc]

end Ledger.Advances

/-! ### References and their steps -/

/-- What has become of a reference so far. -/
inductive Fate where
  | refused (refusal : Refusal)
  | repeated
  | accepted
  deriving DecidableEq

/-- Whether the checks before a request give this refusal, cancelled or not. -/
def Refusal.bars : Refusal → Bool
  | circular _ => true
  | tooDeep _ => true
  | cancelled => false
  | notFound => false
  | timedOut _ => false
  | broken _ => false

/-- What may become of a reference after a move. -/
def Fate.Follows : Fate → Move → Prop
  | refused refusal, .barred => refusal.bars = true
  | refused refusal, .stopped => refusal = .cancelled
  | refused refusal, .asked => refusal.bars = false
  | repeated, .repeated => True
  | accepted, .asked => True
  | _, _ => False

/-- A reference, the references on the way to its document, outermost first, and its fate. -/
structure Entry where
  trail : List Reference
  reference : Reference
  fate : Fate

namespace Entry

def request (entry : Entry) : Request :=
  ⟨entry.trail.map Reference.name, entry.reference.name⟩

structure Follows (entry : Entry) (step : Step) : Prop where
  request : step.request = entry.request
  move : entry.fate.Follows step.move

theorem Follows.refuse {trail : List Reference} {reference : Reference} {step : Step}
    (follows : (Entry.mk trail reference .accepted).Follows step) {refusal : Refusal}
    (free : refusal.bars = false) : (Entry.mk trail reference (.refused refusal)).Follows step := by
  obtain ⟨request, move⟩ := follows
  obtain ⟨asked, made⟩ := step
  cases made with
  | barred => exact move.elim
  | «repeated» => exact move.elim
  | stopped => exact move.elim
  | asked => exact ⟨request, free⟩

end Entry

def Planned.entry {τ : Type} (trail : List Reference) : Planned τ → Entry
  | refused reference refusal => ⟨trail, reference, .refused refusal⟩
  | repeated reference => ⟨trail, reference, .repeated⟩
  | pending reference _ => ⟨trail, reference, .accepted⟩

def Settled.entry (trail : List Reference) : Settled → Entry
  | refused reference refusal => ⟨trail, reference, .refused refusal⟩
  | repeated reference => ⟨trail, reference, .repeated⟩
  | resolved reference _ _ => ⟨trail, reference, .accepted⟩

namespace Inclusions

def level (trail : List Reference) : Inclusions → List Entry
  | none => []
  | refused reference refusal rest => ⟨trail, reference, .refused refusal⟩ :: level trail rest
  | repeated reference rest => ⟨trail, reference, .repeated⟩ :: level trail rest
  | included reference _ _ _ rest => ⟨trail, reference, .accepted⟩ :: level trail rest

def deeper (trail : List Reference) : Inclusions → List Entry
  | none => []
  | refused _ _ rest => deeper trail rest
  | repeated _ rest => deeper trail rest
  | included reference _ _ below rest =>
      level (trail ++ [reference]) below ++ deeper (trail ++ [reference]) below ++
        deeper trail rest

/-- All references, in the order in which names are taken up. -/
def inOrder (trail : List Reference) (tree : Inclusions) : List Entry :=
  tree.level trail ++ tree.deeper trail

end Inclusions

/-! ### The steps of an analysis -/

namespace Analyzer

variable {ω τ : Type} {analyzer : Analyzer ω τ}

theorem plan_step (shared : analyzer.config.dedup = .shared) {trail : List Reference}
    {reference : Reference} {ledger after : Ledger ω} {planned : Planned τ}
    (went : analyzer.plan (trail.map Reference.name) reference ledger = some (planned, after)) :
    ∃ step, (planned.entry trail).Follows step ∧ ledger.Advances [step] after := by
  unfold plan at went
  split at went
  next circular =>
    cases went
    refine ⟨⟨⟨_, reference.name⟩, .barred⟩, ⟨rfl, rfl⟩, .single trivial ?_ ?_⟩
    · exact (List.append_nil _).symm
    · exact (List.append_nil _).symm
  next =>
    split at went
    next again =>
      have known : reference.name ∈ ledger.claimed := by
        simpa [isRepeated, shared] using again
      cases went
      refine ⟨⟨⟨_, reference.name⟩, .repeated⟩, ⟨rfl, trivial⟩, .single known ?_ ?_⟩
      · exact (List.append_nil _).symm
      · exact (List.append_nil _).symm
    next new =>
      have fresh : reference.name ∉ ledger.claimed := by
        simpa [isRepeated, shared] using new
      unfold ask at went
      split at went
      next cancelled =>
        cases went
        refine ⟨⟨⟨_, reference.name⟩, .stopped⟩, ⟨rfl, rfl⟩, .single fresh rfl ?_⟩
        exact (List.append_nil _).symm
      next =>
        obtain ⟨answer, _, same⟩ := Option.map_eq_some_iff.mp went
        cases same
        exact ⟨⟨⟨_, reference.name⟩, .asked⟩, ⟨rfl, trivial⟩, .single fresh rfl rfl⟩

theorem planAll_steps (shared : analyzer.config.dedup = .shared) {trail references : List Reference}
    {ledger after : Ledger ω} {planned : List (Planned τ)}
    (went : analyzer.planAll (trail.map Reference.name) references ledger =
      some (planned, after)) :
    ∃ steps, List.Forall₂ (fun entry step => (Planned.entry trail entry).Follows step) planned
        steps ∧ ledger.Advances steps after := by
  induction references generalizing ledger planned with
  | nil =>
      cases went
      exact ⟨[], .nil, .refl _⟩
  | cons reference rest ih =>
      unfold planAll at went
      split at went
      next => cases went
      next entry between first =>
        split at went
        next => cases went
        next others last second =>
          cases went
          obtain ⟨step, follows, advances⟩ := plan_step shared first
          obtain ⟨steps, follow, onward⟩ := ih second
          exact ⟨step :: steps, .cons follows follow, advances.append onward⟩

theorem settle_follows {trail : List Reference} {reference : Reference} {step : Step}
    (follows : (Entry.mk trail reference .accepted).Follows step) (resolution : Resolution) :
    ((analyzer.settle reference resolution).entry trail).Follows step := by
  cases resolution with
  | resolved content uri => exact follows
  | notFound => exact follows.refuse rfl
  | timedOut => exact follows.refuse rfl
  | cancelled => exact follows.refuse rfl

theorem awaitAll_steps (analyzer : Analyzer ω τ) {trail : List Reference}
    {planned : List (Planned τ)} {steps : List Step}
    (follow : List.Forall₂ (fun entry step => (Planned.entry trail entry).Follows step) planned
      steps) (ledger : Ledger ω) :
    List.Forall₂ (fun entry step => (Settled.entry trail entry).Follows step)
        (analyzer.awaitAll planned ledger).1 steps ∧
      ledger.Advances [] (analyzer.awaitAll planned ledger).2 := by
  -- Waiting takes no step by itself, it only decides what becomes of those that asked.
  induction follow generalizing ledger with
  | nil => exact ⟨.nil, .refl ledger⟩
  | @cons entry step planned steps follows others ih =>
      cases entry with
      | refused reference refusal =>
          obtain ⟨follow, waited⟩ := ih ledger
          exact ⟨.cons follows follow, waited⟩
      | «repeated» reference =>
          obtain ⟨follow, waited⟩ := ih ledger
          exact ⟨.cons follows follow, waited⟩
      | pending reference ticket =>
          obtain ⟨follow, orderly, claimed, requests⟩ :=
            ih (ledger.moved (analyzer.exchange.await ticket ledger.world).2)
          exact ⟨.cons (settle_follows follows _) follow, orderly, claimed, requests⟩

theorem includeAll_steps {reading : Reading} {trail : List Reference}
    {follow : LogicalName → List Reference → Ledger ω → Option (Inclusions × Ledger ω)}
    (followed : ∀ reference references ledger below after,
      follow reference.name references ledger = some (below, after) →
        ∃ steps, List.Forall₂ Entry.Follows (below.inOrder (trail ++ [reference])) steps ∧
          ledger.Advances steps after)
    {settled : List Settled} {steps : List Step}
    (fits : List.Forall₂ (fun entry step => (Settled.entry trail entry).Follows step) settled
      steps)
    {ledger after : Ledger ω} {tree : Inclusions}
    (went : includeAll reading follow settled ledger = some (tree, after)) :
    List.Forall₂ Entry.Follows (tree.level trail) steps ∧
      ∃ further, List.Forall₂ Entry.Follows (tree.deeper trail) further ∧
        ledger.Advances further after := by
  induction fits generalizing ledger tree with
  | nil =>
      cases went
      exact ⟨.nil, [], .nil, .refl _⟩
  | @cons entry step settled steps follows others ih =>
      cases entry with
      | refused reference refusal =>
          obtain ⟨⟨rest, last⟩, included, same⟩ := Option.map_eq_some_iff.mp went
          cases same
          obtain ⟨here, below⟩ := ih included
          exact ⟨.cons follows here, below⟩
      | «repeated» reference =>
          obtain ⟨⟨rest, last⟩, included, same⟩ := Option.map_eq_some_iff.mp went
          cases same
          obtain ⟨here, below⟩ := ih included
          exact ⟨.cons follows here, below⟩
      | resolved reference text uri =>
          unfold includeAll at went
          split at went
          next error broken =>
            obtain ⟨⟨rest, last⟩, included, same⟩ := Option.map_eq_some_iff.mp went
            cases same
            obtain ⟨here, below⟩ := ih included
            exact ⟨.cons (follows.refuse rfl) here, below⟩
          next document read =>
            split at went
            next => cases went
            next inside between below =>
              obtain ⟨⟨rest, last⟩, included, same⟩ := Option.map_eq_some_iff.mp went
              cases same
              obtain ⟨within, fitsWithin, advances⟩ := followed _ _ _ _ _ below
              obtain ⟨here, further, fitsFurther, onward⟩ := ih included
              exact ⟨.cons follows here, within ++ further,
                List.rel_append fitsWithin fitsFurther, advances.append onward⟩

theorem refusalAtLimit_bars (analyzer : Analyzer ω τ) (chain : List LogicalName)
    (reference : Reference) : (analyzer.refusalAtLimit chain reference).bars = true := by
  unfold refusalAtLimit
  split
  · rfl
  · rfl

theorem explore_steps (shared : analyzer.config.dedup = .shared) {deeper : Nat}
    {trail references : List Reference} {ledger after : Ledger ω} {tree : Inclusions}
    (went : analyzer.explore deeper (trail.map Reference.name) references ledger =
      some (tree, after)) :
    ∃ steps, List.Forall₂ Entry.Follows (tree.inOrder trail) steps ∧
      ledger.Advances steps after := by
  induction deeper generalizing trail references ledger after tree with
  | zero =>
      cases went
      induction references with
      | nil => exact ⟨[], .nil, .refl ledger⟩
      | cons reference rest ih =>
          obtain ⟨steps, follow, advances⟩ := ih
          have barred := analyzer.refusalAtLimit_bars (trail.map Reference.name) reference
          have still : ledger.Advances [⟨⟨trail.map Reference.name, reference.name⟩, .barred⟩]
              ledger := .single trivial (List.append_nil _).symm (List.append_nil _).symm
          exact ⟨⟨_, .barred⟩ :: steps, .cons ⟨rfl, barred⟩ follow, still.append advances⟩
  | succ deeper ih =>
      unfold explore at went
      split at went
      next => cases went
      next planned between plans =>
        obtain ⟨steps, follow, advances⟩ := planAll_steps shared plans
        obtain ⟨settled, waited⟩ := analyzer.awaitAll_steps follow between
        have followed : ∀ (reference : Reference) references ledger below after,
            analyzer.explore deeper (trail.map Reference.name ++ [reference.name]) references
                ledger = some (below, after) →
              ∃ steps, List.Forall₂ Entry.Follows (below.inOrder (trail ++ [reference])) steps ∧
                ledger.Advances steps after := by
          intro reference references ledger below after went
          apply ih
          rw [List.map_append]
          exact went
        obtain ⟨here, further, below, onward⟩ := includeAll_steps followed settled went
        exact ⟨steps ++ further, List.rel_append here below,
          advances.append (waited.append onward)⟩

end Analyzer

end CobolAnalysis
