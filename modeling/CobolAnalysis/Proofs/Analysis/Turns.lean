/-
The turns of an analysis, one after the other, and the inclusions they lead to.

For each document, all references take their turns, then those that were asked for are
waited for, each in turn, and then all that lies below takes its turns, copybook by
copybook. A turn knows the world before and after it, so a change of the world in the
midst of an analysis is seen by all turns that follow. What becomes of a reference is
settled by its own turns alone.
-/

import CobolAnalysis.Proofs.Analysis.Account
import CobolAnalysis.Proofs.Analysis.IncludeGraph
import CobolAnalysis.Proofs.Analysis.SettledOnce

namespace CobolAnalysis

open Parse (Reference)
open Scenario.Bench (Subject)

inductive Deed (τ : Type) where
  | barred (refusal : Refusal)
  | repeated
  | stopped
  | asked (ticket : τ)
  | awaited (ticket : τ)

/-- A deed for a reference, and the references on the way to its document, outermost first. -/
structure Turn (ω τ : Type) where
  trail : List Reference
  reference : Reference
  deed : Deed τ
  before : Ledger ω
  after : Ledger ω

variable {ω τ : Type}

namespace Turn

def request (turn : Turn ω τ) : Request := ⟨turn.trail.map Reference.name, turn.reference.name⟩

def asked (turn : Turn ω τ) : List Request :=
  match turn.deed with
  | .asked _ => [turn.request]
  | _ => []

/-- The reference, if the turn is its first. -/
def met? (turn : Turn ω τ) : Option (List Reference × Reference) :=
  match turn.deed with
  | .awaited _ => none
  | _ => some (turn.trail, turn.reference)

/-- The reference and the ticket it was given, if it was asked for in the turn. -/
def ticket? (turn : Turn ω τ) : Option (List Reference × Reference × τ) :=
  match turn.deed with
  | .asked ticket => some (turn.trail, turn.reference, ticket)
  | _ => none

def awaited? (turn : Turn ω τ) : Option (List Reference × Reference × τ) :=
  match turn.deed with
  | .awaited ticket => some (turn.trail, turn.reference, ticket)
  | _ => none

def failure? (analyzer : Analyzer ω τ) (turn : Turn ω τ) : Option Failure :=
  match turn.deed with
  | .barred refusal => some ⟨turn.trail, turn.reference, refusal⟩
  | .repeated => none
  | .stopped => some ⟨turn.trail, turn.reference, .cancelled⟩
  | .asked _ => none
  | .awaited ticket =>
      match analyzer.settle turn.reference
          (analyzer.exchange.await ticket turn.before.world).1 with
      | .refused _ refusal => some ⟨turn.trail, turn.reference, refusal⟩
      | .repeated _ => none
      | .resolved _ content uri =>
          match analyzer.reading.document uri content with
          | .error error => some ⟨turn.trail, turn.reference, .broken error⟩
          | .ok _ => none

def brought? (analyzer : Analyzer ω τ) (turn : Turn ω τ) : Option Brought :=
  match turn.deed with
  | .awaited ticket =>
      match analyzer.settle turn.reference
          (analyzer.exchange.await ticket turn.before.world).1 with
      | .resolved _ content uri =>
          match analyzer.reading.document uri content with
          | .error _ => none
          | .ok document => some ⟨turn.reference.name, uri, document.context⟩
      | _ => none
  | _ => none

end Turn

/-- The property of worlds survives asking and waiting. -/
structure Exchange.Keeps (exchange : Exchange ω τ) (holds : ω → Prop) : Prop where
  request : ∀ name world ticket after, exchange.request name world = some (ticket, after) →
    holds world → holds after
  await : ∀ ticket world, holds world → holds (exchange.await ticket world).2

namespace Analyzer

/-- The turns that the analyzer makes: its checks permit them, and they lead where the exchange
leads. -/
inductive Makes (analyzer : Analyzer ω τ) : Turn ω τ → Prop where
  | barred {trail ledger refusal} {reference : Reference} (bars : refusal.bars = true)
      (warranted : refusal.Warranted analyzer.reading analyzer.config (trail.map Reference.name)
        reference.name) :
      Makes analyzer ⟨trail, reference, .barred refusal, ledger, ledger⟩
  | repeated {trail ledger} {reference : Reference}
      (admitted : Admits analyzer.config (trail.map Reference.name) reference.name)
      (again : analyzer.isRepeated ledger reference.name = true) :
      Makes analyzer ⟨trail, reference, .repeated, ledger, ledger⟩
  | stopped {trail ledger} {reference : Reference}
      (admitted : Admits analyzer.config (trail.map Reference.name) reference.name)
      (first : analyzer.isRepeated ledger reference.name = false)
      (cancelled : analyzer.exchange.cancelled.get ledger.world = true) :
      Makes analyzer ⟨trail, reference, .stopped, ledger, ledger.claim reference.name⟩
  | asked {trail ledger ticket world} {reference : Reference}
      (admitted : Admits analyzer.config (trail.map Reference.name) reference.name)
      (first : analyzer.isRepeated ledger reference.name = false)
      (going : analyzer.exchange.cancelled.get ledger.world = false)
      (requested : analyzer.exchange.request reference.name ledger.world = some (ticket, world)) :
      Makes analyzer ⟨trail, reference, .asked ticket, ledger,
        (ledger.claim reference.name).asked ⟨trail.map Reference.name, reference.name⟩ world⟩
  | awaited {trail ledger ticket} {reference : Reference} :
      Makes analyzer ⟨trail, reference, .awaited ticket, ledger,
        ledger.moved (analyzer.exchange.await ticket ledger.world).2⟩

/-- The turns lead from one ledger to the other. -/
def Passes (analyzer : Analyzer ω τ) : Ledger ω → List (Turn ω τ) → Ledger ω → Prop
  | ledger, [], last => ledger = last
  | ledger, turn :: later, last =>
      turn.before = ledger ∧ analyzer.Makes turn ∧ analyzer.Passes turn.after later last

variable {analyzer : Analyzer ω τ}

theorem Passes.append {ledger between last : Ledger ω} {first second : List (Turn ω τ)}
    (earlier : analyzer.Passes ledger first between)
    (later : analyzer.Passes between second last) :
    analyzer.Passes ledger (first ++ second) last := by
  induction first generalizing ledger with
  | nil =>
      cases earlier
      exact later
  | cons turn rest ih =>
      obtain ⟨here, makes, passes⟩ := earlier
      exact ⟨here, makes, ih passes⟩

/-- How the inclusions of a document come about: one turn for each reference, then one for each
that was asked for, then the turns of all that lies below. -/
inductive Told (analyzer : Analyzer ω τ) :
    List Reference → Inclusions → List (Turn ω τ) → List (Turn ω τ) → List (Turn ω τ) → Prop where
  | none {trail} : Told analyzer trail .none [] [] []
  | barred {trail rest plans waits below before after} {reference : Reference} {refusal : Refusal}
      (others : Told analyzer trail rest plans waits below) :
      Told analyzer trail (.refused reference refusal rest)
        (⟨trail, reference, .barred refusal, before, after⟩ :: plans) waits below
  | repeated {trail rest plans waits below before after} {reference : Reference}
      (others : Told analyzer trail rest plans waits below) :
      Told analyzer trail (.repeated reference rest)
        (⟨trail, reference, .repeated, before, after⟩ :: plans) waits below
  | stopped {trail rest plans waits below before after} {reference : Reference}
      (others : Told analyzer trail rest plans waits below) :
      Told analyzer trail (.refused reference .cancelled rest)
        (⟨trail, reference, .stopped, before, after⟩ :: plans) waits below
  | failed {trail rest plans waits below before after answering answered ticket}
      {reference : Reference} {refusal : Refusal}
      (settled : analyzer.settle reference (analyzer.exchange.await ticket answering.world).1 =
        .refused reference refusal)
      (others : Told analyzer trail rest plans waits below) :
      Told analyzer trail (.refused reference refusal rest)
        (⟨trail, reference, .asked ticket, before, after⟩ :: plans)
        (⟨trail, reference, .awaited ticket, answering, answered⟩ :: waits) below
  | broken {trail rest plans waits below before after answering answered ticket content uri error}
      {reference : Reference}
      (settled : analyzer.settle reference (analyzer.exchange.await ticket answering.world).1 =
        .resolved reference content uri)
      (unreadable : analyzer.reading.document uri content = .error error)
      (others : Told analyzer trail rest plans waits below) :
      Told analyzer trail (.refused reference (.broken error) rest)
        (⟨trail, reference, .asked ticket, before, after⟩ :: plans)
        (⟨trail, reference, .awaited ticket, answering, answered⟩ :: waits) below
  | included {trail rest plans waits below before after answering answered ticket content uri
      document tree innerPlans innerWaits innerBelow} {reference : Reference}
      (settled : analyzer.settle reference (analyzer.exchange.await ticket answering.world).1 =
        .resolved reference content uri)
      (read : analyzer.reading.document uri content = .ok document)
      (inside : Told analyzer (trail ++ [reference]) tree innerPlans innerWaits innerBelow)
      (others : Told analyzer trail rest plans waits below) :
      Told analyzer trail (.included reference uri document.context tree rest)
        (⟨trail, reference, .asked ticket, before, after⟩ :: plans)
        (⟨trail, reference, .awaited ticket, answering, answered⟩ :: waits)
        (innerPlans ++ innerWaits ++ innerBelow ++ below)

def Tells (analyzer : Analyzer ω τ) (trail : List Reference) (tree : Inclusions)
    (turns : List (Turn ω τ)) : Prop :=
  ∃ plans waits below, turns = plans ++ waits ++ below ∧ analyzer.Told trail tree plans waits below

/-! ### An analysis takes its turns -/

/-- The turn that leads to a plan. -/
inductive Plans : List Reference → Planned τ → Turn ω τ → Prop where
  | barred {trail reference refusal before after} :
      Plans trail (.refused reference refusal) ⟨trail, reference, .barred refusal, before, after⟩
  | repeated {trail reference before after} :
      Plans trail (.repeated reference) ⟨trail, reference, .repeated, before, after⟩
  | stopped {trail reference before after} :
      Plans trail (.refused reference .cancelled) ⟨trail, reference, .stopped, before, after⟩
  | asked {trail reference ticket before after} :
      Plans trail (.pending reference ticket) ⟨trail, reference, .asked ticket, before, after⟩

theorem plan_turn {trail : List Reference}
    (room : trail.length < analyzer.config.maxDepth) {reference : Reference}
    {ledger after : Ledger ω} {planned : Planned τ}
    (went : analyzer.plan (trail.map Reference.name) reference ledger = some (planned, after)) :
    ∃ turn, Plans trail planned turn ∧ turn.before = ledger ∧ analyzer.Makes turn ∧
      turn.after = after := by
  have wide : (trail.map Reference.name).length < analyzer.config.maxDepth := by
    rw [List.length_map]
    exact room
  unfold plan at went
  split at went
  next circular =>
    cases went
    have there := List.contains_iff_mem.mp circular
    exact ⟨⟨trail, reference, .barred _, ledger, ledger⟩, .barred, rfl,
      .barred rfl ⟨there, rfl⟩, rfl⟩
  next fresh =>
    have admitted : Admits analyzer.config (trail.map Reference.name) reference.name :=
      ⟨fun there => fresh (List.contains_iff_mem.mpr there), wide⟩
    split at went
    next again =>
      cases went
      exact ⟨⟨trail, reference, .repeated, ledger, ledger⟩, .repeated, rfl,
        .repeated admitted again, rfl⟩
    next new =>
      have first := Bool.eq_false_iff.mpr new
      unfold ask at went
      split at went
      next cancelled =>
        cases went
        exact ⟨⟨trail, reference, .stopped, ledger, ledger.claim reference.name⟩, .stopped, rfl,
          .stopped admitted first cancelled, rfl⟩
      next going =>
        obtain ⟨⟨ticket, world⟩, requested, same⟩ := Option.map_eq_some_iff.mp went
        cases same
        exact ⟨⟨trail, reference, .asked ticket, ledger, _⟩, .asked, rfl,
          .asked admitted first (Bool.eq_false_iff.mpr going) requested, rfl⟩

theorem planAll_turns {trail : List Reference}
    (room : trail.length < analyzer.config.maxDepth) {references : List Reference}
    {ledger after : Ledger ω} {planned : List (Planned τ)}
    (went : analyzer.planAll (trail.map Reference.name) references ledger =
      some (planned, after)) :
    ∃ plans, List.Forall₂ (Plans trail) planned plans ∧ analyzer.Passes ledger plans after := by
  induction references generalizing ledger planned with
  | nil =>
      cases went
      exact ⟨[], .nil, rfl⟩
  | cons reference rest ih =>
      unfold planAll at went
      split at went
      next => cases went
      next entry between first =>
        split at went
        next => cases went
        next others last second =>
          cases went
          obtain ⟨turn, plans, here, makes, leads⟩ := plan_turn room first
          obtain ⟨turns, follow, passes⟩ := ih second
          exact ⟨turn :: turns, .cons plans follow, here, makes, leads ▸ passes⟩

/-- The turns that lead to what is settled before anything is read. -/
inductive Settles (analyzer : Analyzer ω τ) (trail : List Reference) :
    List Settled → List (Turn ω τ) → List (Turn ω τ) → Prop where
  | none : Settles analyzer trail [] [] []
  | barred {reference refusal before after settled plans waits}
      (others : Settles analyzer trail settled plans waits) :
      Settles analyzer trail (.refused reference refusal :: settled)
        (⟨trail, reference, .barred refusal, before, after⟩ :: plans) waits
  | repeated {reference before after settled plans waits}
      (others : Settles analyzer trail settled plans waits) :
      Settles analyzer trail (.repeated reference :: settled)
        (⟨trail, reference, .repeated, before, after⟩ :: plans) waits
  | stopped {reference before after settled plans waits}
      (others : Settles analyzer trail settled plans waits) :
      Settles analyzer trail (.refused reference .cancelled :: settled)
        (⟨trail, reference, .stopped, before, after⟩ :: plans) waits
  | answered {reference ticket before after answering answered settled plans waits}
      (others : Settles analyzer trail settled plans waits) :
      Settles analyzer trail
        (analyzer.settle reference (analyzer.exchange.await ticket answering.world).1 :: settled)
        (⟨trail, reference, .asked ticket, before, after⟩ :: plans)
        (⟨trail, reference, .awaited ticket, answering, answered⟩ :: waits)

theorem awaitAll_turns (analyzer : Analyzer ω τ) {trail : List Reference}
    {planned : List (Planned τ)} {plans : List (Turn ω τ)}
    (planning : List.Forall₂ (Plans trail) planned plans) (ledger : Ledger ω) :
    ∃ waits, analyzer.Settles trail (analyzer.awaitAll planned ledger).1 plans waits ∧
      analyzer.Passes ledger waits (analyzer.awaitAll planned ledger).2 := by
  induction planning generalizing ledger with
  | nil => exact ⟨[], .none, rfl⟩
  | cons first others ih =>
      cases first with
      | barred =>
          obtain ⟨waits, settles, passes⟩ := ih ledger
          exact ⟨waits, .barred settles, passes⟩
      | «repeated» =>
          obtain ⟨waits, settles, passes⟩ := ih ledger
          exact ⟨waits, .repeated settles, passes⟩
      | stopped =>
          obtain ⟨waits, settles, passes⟩ := ih ledger
          exact ⟨waits, .stopped settles, passes⟩
      | @asked reference ticket before after =>
          obtain ⟨waits, settles, passes⟩ :=
            ih (ledger.moved (analyzer.exchange.await ticket ledger.world).2)
          exact ⟨⟨trail, reference, .awaited ticket, ledger,
            ledger.moved (analyzer.exchange.await ticket ledger.world).2⟩ :: waits,
            .answered settles, rfl, .awaited, passes⟩

theorem settle_cases (analyzer : Analyzer ω τ) (reference : Reference) (resolution : Resolution) :
    (∃ refusal, analyzer.settle reference resolution = .refused reference refusal) ∨
      ∃ content uri, analyzer.settle reference resolution = .resolved reference content uri := by
  cases resolution with
  | resolved content uri => exact Or.inr ⟨content, _, rfl⟩
  | _ => exact Or.inl ⟨_, rfl⟩

theorem includeAll_turns {trail : List Reference}
    {follow : LogicalName → List Reference → Ledger ω → Option (Inclusions × Ledger ω)}
    (followed : ∀ (reference : Reference) references ledger below after,
      follow reference.name references ledger = some (below, after) →
        ∃ turns, analyzer.Tells (trail ++ [reference]) below turns ∧
          analyzer.Passes ledger turns after)
    {settled : List Settled} {plans waits : List (Turn ω τ)}
    (settles : analyzer.Settles trail settled plans waits) {ledger after : Ledger ω}
    {tree : Inclusions}
    (went : includeAll analyzer.reading follow settled ledger = some (tree, after)) :
    ∃ below, analyzer.Told trail tree plans waits below ∧ analyzer.Passes ledger below after := by
  -- The ledger runs through the copybooks in order; plans and waits are over by then.
  induction settles generalizing ledger tree with
  | none =>
      cases went
      exact ⟨[], .none, rfl⟩
  | barred others ih =>
      obtain ⟨⟨rest, last⟩, included, same⟩ := Option.map_eq_some_iff.mp went
      cases same
      obtain ⟨below, told, passes⟩ := ih included
      exact ⟨below, .barred told, passes⟩
  | «repeated» others ih =>
      obtain ⟨⟨rest, last⟩, included, same⟩ := Option.map_eq_some_iff.mp went
      cases same
      obtain ⟨below, told, passes⟩ := ih included
      exact ⟨below, .repeated told, passes⟩
  | stopped others ih =>
      obtain ⟨⟨rest, last⟩, included, same⟩ := Option.map_eq_some_iff.mp went
      cases same
      obtain ⟨below, told, passes⟩ := ih included
      exact ⟨below, .stopped told, passes⟩
  | @answered reference ticket before after answering answered settled plans waits others ih =>
      rcases analyzer.settle_cases reference (analyzer.exchange.await ticket answering.world).1 with
        ⟨refusal, failed⟩ | ⟨content, uri, resolved⟩
      · rw [failed] at went
        obtain ⟨⟨rest, last⟩, included, same⟩ := Option.map_eq_some_iff.mp went
        cases same
        obtain ⟨below, told, passes⟩ := ih included
        exact ⟨below, .failed failed told, passes⟩
      · rw [resolved] at went
        unfold includeAll at went
        split at went
        next error unreadable =>
          obtain ⟨⟨rest, last⟩, included, same⟩ := Option.map_eq_some_iff.mp went
          cases same
          obtain ⟨below, told, passes⟩ := ih included
          exact ⟨below, .broken resolved unreadable told, passes⟩
        next document read =>
          split at went
          next => cases went
          next inside between within =>
            obtain ⟨⟨rest, last⟩, included, same⟩ := Option.map_eq_some_iff.mp went
            cases same
            obtain ⟨_, ⟨innerPlans, innerWaits, innerBelow, rfl, inner⟩, inward⟩ :=
              followed reference _ _ _ _ within
            obtain ⟨below, told, passes⟩ := ih included
            exact ⟨_, .included resolved read inner told, inward.append passes⟩

theorem atLimit_turns {trail : List Reference}
    (full : (trail.map Reference.name).length = analyzer.config.maxDepth)
    (references : List Reference) (ledger : Ledger ω) :
    ∃ plans, analyzer.Told trail (references.foldr (fun reference rest =>
        .refused reference (analyzer.refusalAtLimit (trail.map Reference.name) reference) rest)
        .none) plans [] [] ∧ analyzer.Passes ledger plans ledger := by
  induction references with
  | nil => exact ⟨[], .none, rfl⟩
  | cons reference rest ih =>
      obtain ⟨plans, told, passes⟩ := ih
      exact ⟨⟨trail, reference, .barred _, ledger, ledger⟩ :: plans, .barred told, rfl,
        .barred (analyzer.refusalAtLimit_bars _ reference)
          (refusalAtLimit_warranted full reference), passes⟩

/-- Whatever the exchange does, the inclusions of an analysis come about turn by turn. -/
theorem explore_turns {deeper : Nat} {trail references : List Reference}
    (depth : trail.length + deeper = analyzer.config.maxDepth) {ledger after : Ledger ω}
    {tree : Inclusions}
    (went : analyzer.explore deeper (trail.map Reference.name) references ledger =
      some (tree, after)) :
    ∃ turns, analyzer.Tells trail tree turns ∧ analyzer.Passes ledger turns after := by
  induction deeper generalizing trail references ledger after tree with
  | zero =>
      cases went
      have full : (trail.map Reference.name).length = analyzer.config.maxDepth := by
        rw [List.length_map]
        exact depth
      obtain ⟨plans, told, passes⟩ := atLimit_turns full references ledger
      refine ⟨plans, ⟨plans, [], [], ?_, told⟩, passes⟩
      rw [List.append_nil, List.append_nil]
  | succ deeper ih =>
      unfold explore at went
      split at went
      next => cases went
      next planned between plans =>
        obtain ⟨planTurns, planning, planned⟩ := planAll_turns (by omega) plans
        obtain ⟨waits, settles, waited⟩ := analyzer.awaitAll_turns planning between
        have followed : ∀ (reference : Reference) references ledger below after,
            analyzer.explore deeper (trail.map Reference.name ++ [reference.name]) references
                ledger = some (below, after) →
              ∃ turns, analyzer.Tells (trail ++ [reference]) below turns ∧
                analyzer.Passes ledger turns after := by
          intro reference references ledger below after went
          apply ih
          · rw [List.length_append, List.length_singleton]
            omega
          · rw [List.map_append]
            exact went
        obtain ⟨below, told, onward⟩ := includeAll_turns followed settles went
        exact ⟨_, ⟨planTurns, waits, below, rfl, told⟩, (planned.append waited).append onward⟩

/-! ### What the turns say of the inclusions -/

variable {trail : List Reference} {tree : Inclusions} {plans waits below turns : List (Turn ω τ)}

theorem Told.met_level (told : analyzer.Told trail tree plans waits below) :
    plans.filterMap Turn.met? =
        (tree.level trail).map (fun entry => (entry.trail, entry.reference)) ∧
      waits.filterMap Turn.met? = [] := by
  induction told with
  | none => exact ⟨rfl, rfl⟩
  | barred others ih | «repeated» others ih | stopped others ih =>
      exact ⟨congrArg (_ :: ·) ih.1, ih.2⟩
  | failed settled others ih | broken settled unreadable others ih =>
      exact ⟨congrArg (_ :: ·) ih.1, ih.2⟩
  | included settled read inside others ihInside ih => exact ⟨congrArg (_ :: ·) ih.1, ih.2⟩

/-- Each reference of each document that is read has one turn in which it is met, in the order in
which names are taken up. -/
theorem Tells.met (tells : analyzer.Tells trail tree turns) :
    turns.filterMap Turn.met? =
      (tree.inOrder trail).map fun entry => (entry.trail, entry.reference) := by
  obtain ⟨plans, waits, below, rfl, told⟩ := tells
  have level := told.met_level
  have deeper : below.filterMap Turn.met? =
      (tree.deeper trail).map fun entry => (entry.trail, entry.reference) := by
    clear level
    induction told with
    | none => rfl
    | barred others ih | «repeated» others ih | stopped others ih => exact ih
    | failed settled others ih | broken settled unreadable others ih => exact ih
    | included settled read inside others ihInside ih =>
        have within := inside.met_level
        simp only [List.filterMap_append, Inclusions.deeper, List.map_append, within.1, within.2,
          List.append_nil, ihInside, ih]
  rw [List.filterMap_append, List.filterMap_append, level.1, level.2, List.append_nil, deeper,
    ← List.map_append]
  rfl

/-- The failures are those of the turns, in another order: what lies below comes last. -/
theorem Tells.failures (tells : analyzer.Tells trail tree turns) :
    (tree.failures trail).Perm (turns.filterMap (Turn.failure? analyzer)) := by
  obtain ⟨plans, waits, below, rfl, told⟩ := tells
  induction told with
  | none => exact List.Perm.refl []
  | barred others ih => exact ih.cons _
  | «repeated» others ih => exact ih
  | stopped others ih => exact ih.cons _
  | @failed trail rest plans waits below before after answering answered ticket reference refusal
      settled others ih =>
      have fails : Turn.failure? analyzer
          ⟨trail, reference, .awaited ticket, answering, answered⟩ =
            some ⟨trail, reference, refusal⟩ := by
        simp only [Turn.failure?, settled]
      refine (ih.cons ⟨trail, reference, refusal⟩).trans ?_
      simp only [List.filterMap_append, List.append_assoc, List.filterMap_cons, fails]
      exact List.perm_middle.symm
  | @broken trail rest plans waits below before after answering answered ticket content uri error
      reference settled unreadable others ih =>
      have fails : Turn.failure? analyzer
          ⟨trail, reference, .awaited ticket, answering, answered⟩ =
            some ⟨trail, reference, .broken error⟩ := by
        simp only [Turn.failure?, settled, unreadable]
      refine (ih.cons ⟨trail, reference, .broken error⟩).trans ?_
      simp only [List.filterMap_append, List.append_assoc, List.filterMap_cons, fails]
      exact List.perm_middle.symm
  | @included trail rest plans waits below before after answering answered ticket content uri
      document tree innerPlans innerWaits innerBelow reference settled read inside others ihInside
      ih =>
      have quiet : Turn.failure? analyzer
          ⟨trail, reference, .awaited ticket, answering, answered⟩ = none := by
        simp only [Turn.failure?, settled, read]
      refine (ihInside.append ih).trans ?_
      simp only [List.filterMap_append, List.filterMap_cons, quiet]
      exact List.perm_append_comm_assoc _ _ _

theorem Tells.brought (tells : analyzer.Tells trail tree turns) :
    tree.brought.Perm (turns.filterMap (Turn.brought? analyzer)) := by
  obtain ⟨plans, waits, below, rfl, told⟩ := tells
  induction told with
  | none => exact List.Perm.refl []
  | barred others ih | «repeated» others ih | stopped others ih => exact ih
  | @failed trail rest plans waits below before after answering answered ticket reference refusal
      settled others ih =>
      have nothing : Turn.brought? analyzer
          ⟨trail, reference, .awaited ticket, answering, answered⟩ = none := by
        simp only [Turn.brought?, settled]
      simp only [List.filterMap_append, List.filterMap_cons, nothing] at ih ⊢
      exact ih
  | @broken trail rest plans waits below before after answering answered ticket content uri error
      reference settled unreadable others ih =>
      have nothing : Turn.brought? analyzer
          ⟨trail, reference, .awaited ticket, answering, answered⟩ = none := by
        simp only [Turn.brought?, settled, unreadable]
      simp only [List.filterMap_append, List.filterMap_cons, nothing] at ih ⊢
      exact ih
  | @included trail rest plans waits below before after answering answered ticket content uri
      document tree innerPlans innerWaits innerBelow reference settled read inside others ihInside
      ih =>
      have brings : Turn.brought? analyzer
          ⟨trail, reference, .awaited ticket, answering, answered⟩ =
            some ⟨reference.name, uri, document.context⟩ := by
        simp only [Turn.brought?, settled, read]
      have nothing : Turn.brought? analyzer
          ⟨trail, reference, .asked ticket, before, after⟩ = none := rfl
      refine ((ihInside.append ih).cons ⟨reference.name, uri, document.context⟩).trans ?_
      simp only [List.filterMap_append, List.filterMap_cons, nothing, brings]
      refine ((List.perm_append_comm_assoc _ _ _).cons _).trans ?_
      rw [List.append_assoc, List.append_assoc (List.filterMap _ plans), List.cons_append]
      exact List.perm_middle.symm

theorem Told.asked_level (told : analyzer.Told trail tree plans waits below) :
    plans.filterMap Turn.ticket? = waits.filterMap Turn.awaited? ∧
      plans.filterMap Turn.awaited? = [] ∧ waits.filterMap Turn.ticket? = [] := by
  induction told with
  | none => exact ⟨rfl, rfl, rfl⟩
  | barred others ih | «repeated» others ih | stopped others ih => exact ih
  | failed settled others ih | broken settled unreadable others ih
  | included settled read inside others ihInside ih =>
      exact ⟨congrArg (_ :: ·) ih.1, ih.2⟩

theorem Tells.awaited_eq_asked (tells : analyzer.Tells trail tree turns) :
    turns.filterMap Turn.ticket? = turns.filterMap Turn.awaited? := by
  obtain ⟨plans, waits, below, rfl, told⟩ := tells
  obtain ⟨level, quietPlans, quietWaits⟩ := told.asked_level
  have deeper : below.filterMap Turn.ticket? = below.filterMap Turn.awaited? := by
    clear level quietPlans quietWaits
    induction told with
    | none => rfl
    | barred others ih | «repeated» others ih | stopped others ih => exact ih
    | failed settled others ih | broken settled unreadable others ih => exact ih
    | included settled read inside others ihInside ih =>
        obtain ⟨within, silentPlans, silentWaits⟩ := inside.asked_level
        simp only [List.filterMap_append, within, silentPlans, silentWaits, ihInside, ih,
          List.append_nil, List.nil_append]
  simp only [List.filterMap_append, level, quietPlans, quietWaits, deeper, List.append_nil,
    List.nil_append]

/-! ### What is asked for -/

theorem Makes.requests {turn : Turn ω τ} (makes : analyzer.Makes turn) :
    turn.after.requests = turn.before.requests ++ turn.asked := by
  cases makes with
  | asked admitted first going requested => rfl
  | _ => exact (List.append_nil _).symm

theorem Passes.requests {ledger last : Ledger ω} (passes : analyzer.Passes ledger turns last) :
    last.requests = ledger.requests ++ turns.flatMap Turn.asked := by
  induction turns generalizing ledger with
  | nil =>
      cases passes
      exact (List.append_nil _).symm
  | cons turn later ih =>
      obtain ⟨rfl, makes, onward⟩ := passes
      rw [ih onward, makes.requests, List.flatMap_cons, List.append_assoc]

/-! ### What holds in every turn -/

theorem Passes.makes {ledger last : Ledger ω} (passes : analyzer.Passes ledger turns last) :
    ∀ turn ∈ turns, analyzer.Makes turn := by
  induction turns generalizing ledger with
  | nil => exact List.forall_mem_nil _
  | cons turn later ih =>
      obtain ⟨_, makes, onward⟩ := passes
      exact List.forall_mem_cons.mpr ⟨makes, ih onward⟩

theorem Makes.keeps {holds : ω → Prop} (keeps : analyzer.exchange.Keeps holds) {turn : Turn ω τ}
    (makes : analyzer.Makes turn) (held : holds turn.before.world) : holds turn.after.world := by
  cases makes with
  | asked admitted first going requested => exact keeps.request _ _ _ _ requested held
  | awaited => exact keeps.await _ _ held
  | _ => exact held

theorem Passes.keeps {holds : ω → Prop} (keeps : analyzer.exchange.Keeps holds)
    {ledger last : Ledger ω} (passes : analyzer.Passes ledger turns last)
    (held : holds ledger.world) :
    ∀ turn ∈ turns, holds turn.before.world ∧ holds turn.after.world := by
  induction turns generalizing ledger with
  | nil => exact List.forall_mem_nil _
  | cons turn later ih =>
      obtain ⟨rfl, makes, onward⟩ := passes
      have after := makes.keeps keeps held
      exact List.forall_mem_cons.mpr ⟨⟨held, after⟩, ih onward after⟩

theorem Passes.pairwise {holds : ω → Prop} (keeps : analyzer.exchange.Keeps holds)
    {ledger last : Ledger ω} (passes : analyzer.Passes ledger turns last) :
    turns.Pairwise fun earlier later =>
      holds earlier.after.world → holds later.before.world := by
  induction turns generalizing ledger with
  | nil => exact .nil
  | cons turn later ih =>
      obtain ⟨_, _, onward⟩ := passes
      refine .cons (fun other member held => ?_) (ih onward)
      exact (onward.keeps keeps held other member).1

end Analyzer

/-! ### Whole analyses -/

/-- What the result of an analysis holds: all that the root document says by itself, all that is
brought in, and what is reported of each failure, in one piece. -/
structure Inclusions.MakesUp (tree : Inclusions) (rootDepth : Nat) (base result : Context) :
    Prop where
  own : base.diagnostics <+: result.diagnostics
  facts : ∀ fact, result.Knows fact ↔
    base.Knows fact ∨ ∃ brought ∈ tree.brought, brought.Knows fact
  reported : ∀ failure ∈ tree.failures [], failure.diagnostics rootDepth <:+: result.diagnostics

/-- The turns and the inclusions of an analysis that came to its end, and how they account for its
outcome. -/
structure Analyzer.Recounts (analyzer : Analyzer ω τ) (subject : Subject) (world : ω)
    (tree : Inclusions) (turns : List (Turn ω τ)) (outcome : Outcome ω) : Prop where
  passes : ∃ ledger,
    analyzer.explore analyzer.config.maxDepth [] (analyzer.roots subject) (.start world) =
      some (tree, ledger) ∧ analyzer.Passes (.start world) turns ledger
  tells : analyzer.Tells [] tree turns
  accounts : Accounts analyzer.reading analyzer.config [] (analyzer.roots subject) tree
  requests : outcome.requests = turns.flatMap Turn.asked
  met : turns.filterMap Turn.met? =
    (tree.inOrder []).map fun entry => (entry.trail, entry.reference)
  awaited : turns.filterMap Turn.ticket? = turns.filterMap Turn.awaited?
  failures : (tree.failures []).Perm (turns.filterMap (Turn.failure? analyzer))
  brought : tree.brought.Perm (turns.filterMap (Turn.brought? analyzer))
  result : tree.MakesUp (rootDepth subject) (analyzer.base subject) outcome.context

namespace Analyzer

theorem run_recounts {analyzer : Analyzer ω τ} {subject : Subject} {world : ω}
    {outcome : Outcome ω} (ran : analyzer.run subject world = some outcome) :
    ∃ tree turns, analyzer.Recounts subject world tree turns outcome ∧
      outcome.context = (tree.contexts (.ofTrail (rootDepth subject) [])).foldl Context.merge
        (analyzer.base subject) := by
  obtain ⟨tree, ledger, explored, accounts, requests, context⟩ := run_cases ran
  have fromRoot : analyzer.explore analyzer.config.maxDepth
      (([] : List Reference).map Reference.name) (analyzer.roots subject) (.start world) =
        some (tree, ledger) := explored
  obtain ⟨turns, tells, passes⟩ := explore_turns (Nat.zero_add _) fromRoot
  refine ⟨tree, turns, ⟨⟨ledger, explored, passes⟩, tells, accounts, ?_, tells.met,
    tells.awaited_eq_asked, tells.failures, tells.brought, ?_, ?_, ?_⟩, context⟩
  · rw [requests]
    exact passes.requests
  · rw [context, Context.diagnostics_foldl_merge]
    exact List.prefix_append _ _
  · intro fact
    rw [context, Context.knows_foldl_merge, Inclusions.knows_contexts]
  · intro failure member
    rw [context]
    exact analyzer.diagnostics_infix_outcome subject member

theorem Recounts.passes_to {analyzer : Analyzer ω τ} {subject : Subject} {world : ω}
    {tree : Inclusions} {turns : List (Turn ω τ)} {outcome : Outcome ω}
    (recounts : analyzer.Recounts subject world tree turns outcome)
    (ran : analyzer.run subject world = some outcome) :
    ∃ ledger, analyzer.Passes (.start world) turns ledger ∧ ledger.world = outcome.world := by
  obtain ⟨ledger, explored, passes⟩ := recounts.passes
  have course := analyzer.run_eq_explore subject world
  rw [explored, ran] at course
  exact ⟨ledger, passes, congrArg Outcome.world (Option.some.inj course).symm⟩

end Analyzer

end CobolAnalysis
