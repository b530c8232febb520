/-
How references unfold when a provider on the bus holds the copybooks.

Whatever is brought in is the copybook that the provider holds, read from its text. A
reference that brings nothing in stands on the way to itself, lies too deep, repeats
another one, asks for what cannot be had, or met an analysis that was cancelled. Nothing
here depends on whether the analysis is cancelled, or at which request.
-/

import CobolAnalysis.Proofs.Analysis.Account
import CobolAnalysis.Proofs.Analysis.IncludeGraph
import CobolAnalysis.Proofs.Analysis.Surfacing

namespace CobolAnalysis

open Parse (Reference)
open Provider (Memory)
open Scenario.Bench (Subject)

/-- A copybook was not had just if the shelf does not give it out, and nothing was cancelled unless
the analysis could be interrupted. The way to the reference has no part in this. -/
def Refusal.Grounded (shelf : Shelf) (interrupted : Prop) (name : LogicalName) : Refusal → Prop
  | circular _ => True
  | tooDeep _ => True
  | cancelled => interrupted
  | notFound => shelf.copybook? name = none
  | timedOut _ => shelf.copybook? name = none
  | broken _ => shelf.copybook? name = none

namespace Shelf

/-- The references at the end of `chain` unfold into the inclusions, with copybooks from the shelf
only. -/
inductive Unfolds (shelf : Shelf) (interrupted : Prop) :
    List LogicalName → List Reference → Inclusions → Prop where
  | none (chain : List LogicalName) : Unfolds shelf interrupted chain [] .none
  | refused {chain references rest} {reference : Reference} {refusal : Refusal}
      (warranted : refusal.Warranted shelf.reading shelf.config chain reference.name)
      (grounded : refusal.Grounded shelf interrupted reference.name)
      (others : Unfolds shelf interrupted chain references rest) :
      Unfolds shelf interrupted chain (reference :: references) (.refused reference refusal rest)
  | repeated {chain references rest} {reference : Reference}
      (shared : shelf.config.dedup = .shared)
      (admitted : Admits shelf.config chain reference.name)
      (others : Unfolds shelf interrupted chain references rest) :
      Unfolds shelf interrupted chain (reference :: references) (.repeated reference rest)
  | included {chain references below rest} {reference : Reference}
      {document : Parse.ParsedDocument} (admitted : Admits shelf.config chain reference.name)
      (found : shelf.copybook? reference.name = some document)
      (inside : Unfolds shelf interrupted (chain ++ [reference.name]) document.references below)
      (others : Unfolds shelf interrupted chain references rest) :
      Unfolds shelf interrupted chain (reference :: references)
        (.included reference reference.name.uri document.context below rest)

end Shelf

/-! ### Tasks over a bus -/

namespace Depot

variable {σ : Type} {depot : Depot σ} {stock : Memory} {tasks : List Task} {bus : Bus (Board σ)}

/-- The provider is attached, however many requests it has counted. -/
def Serves (depot : Depot σ) (stock : Memory) (tasks : List Task) (bus : Bus (Board σ)) : Prop :=
  ∃ count, depot.Attached (stock.counting count) tasks bus

/-- The flag may be raised while everything else is as it should be. -/
def Interruptible (depot : Depot σ) (flag : Part σ Bool) : Prop :=
  ∃ state, depot.steady state ∧ flag.get state = true

theorem Serves.start (serves : depot.Serves stock tasks bus) (name : LogicalName) :
    ∃ least task asked, task.name = name ∧
      (∀ limit, least ≤ limit → Task.start limit name bus = some (task, asked)) ∧
      depot.Serves stock (tasks ++ [task]) asked := by
  obtain ⟨count, attached⟩ := serves
  obtain ⟨least, asked, started, after⟩ := attached.start name
  refine ⟨least, ⟨name, bus.registry.nextId⟩, asked, rfl, started, count + 1, ?_⟩
  have total : (stock.counting count).counting 1 = stock.counting (count + 1) := by
    unfold Memory.counting
    rw [Nat.add_assoc]
  exact total ▸ after

theorem Serves.await {task : Task} (serves : depot.Serves stock (task :: tasks) bus)
    (wasCancelled : Bool) :
    task.await wasCancelled bus =
        (.ofAnswer (stock.answer? task.name) wasCancelled, task.close bus) ∧
      depot.Serves stock tasks (task.close bus) := by
  obtain ⟨count, attached⟩ := serves
  obtain ⟨answered, after⟩ := attached.await wasCancelled
  exact ⟨answered, count, after⟩

theorem Serves.interruptible (serves : depot.Serves stock tasks bus) {flag : Part σ Bool}
    (raised : flag.get bus.state.client = true) : depot.Interruptible flag := by
  obtain ⟨count, attached⟩ := serves
  exact ⟨bus.state.client, attached.holds.2, raised⟩

end Depot

namespace Shelf

variable {σ : Type} {shelf : Shelf} {depot : Depot σ} {flag : Part σ Bool}

def onBus (shelf : Shelf) (flag : Part σ Bool) (limit : Nat) : Analyzer (Bus (Board σ)) Task :=
  ⟨shelf.reading, shelf.config, .overBus limit flag⟩

/-- What was settled is borne out by the shelf. -/
def Bears (shelf : Shelf) (interrupted : Prop) : Settled → Prop
  | .refused reference refusal => refusal.Grounded shelf interrupted reference.name
  | .repeated _ => True
  | .resolved reference text uri =>
      uri = reference.name.uri ∧ shelf.stock.isSilent reference.name = false ∧
        shelf.stock.copybooks.get? reference.name = some text

/-- References before their answers are waited for, and the tasks under way for them. -/
inductive Pends (shelf : Shelf) (interrupted : Prop) :
    List (Planned Task) → List Task → Prop where
  | nil : Pends shelf interrupted [] []
  | refused {reference : Reference} {refusal : Refusal} {planned tasks}
      (grounded : refusal.Grounded shelf interrupted reference.name)
      (rest : Pends shelf interrupted planned tasks) :
      Pends shelf interrupted (.refused reference refusal :: planned) tasks
  | repeated (reference : Reference) {planned tasks}
      (rest : Pends shelf interrupted planned tasks) :
      Pends shelf interrupted (.repeated reference :: planned) tasks
  | pending (reference : Reference) {task : Task} (same : task.name = reference.name)
      {planned tasks} (rest : Pends shelf interrupted planned tasks) :
      Pends shelf interrupted (.pending reference task :: planned) (task :: tasks)

theorem Pends.append {interrupted : Prop} {first second : List (Planned Task)}
    {earlier later : List Task} (pends : shelf.Pends interrupted first earlier)
    (others : shelf.Pends interrupted second later) :
    shelf.Pends interrupted (first ++ second) (earlier ++ later) := by
  induction pends with
  | nil => exact others
  | refused grounded rest ih => exact .refused grounded ih
  | repeated reference rest ih => exact .repeated reference ih
  | pending reference same rest ih => exact .pending reference same ih

theorem plan_pends (flag : Part σ Bool) (chain : List LogicalName) (reference : Reference)
    {tasks : List Task} {ledger : Ledger (Bus (Board σ))}
    (serves : depot.Serves shelf.stock tasks ledger.world) :
    ∃ least entry started after,
      (∀ limit, least ≤ limit →
        (shelf.onBus flag limit).plan chain reference ledger = some (entry, after)) ∧
      shelf.Pends (depot.Interruptible flag) [entry] started ∧
      depot.Serves shelf.stock (tasks ++ started) after.world := by
  have noTask : depot.Serves shelf.stock (tasks ++ []) ledger.world := by
    rw [List.append_nil]
    exact serves
  unfold Analyzer.plan
  -- A task is under way only behind the last check; whatever stops before leaves the bus alone.
  by_cases circular : chain.contains reference.name
  · exact ⟨0, _, [], ledger, fun _ _ => if_pos circular, .refused trivial .nil, noTask⟩
  · by_cases again : shelf.config.dedup == .shared && ledger.claimed.contains reference.name
    · refine ⟨0, _, [], ledger, fun limit _ => ?_, .repeated reference .nil, noTask⟩
      rw [if_neg circular]
      exact if_pos again
    · by_cases raised : flag.get ledger.world.state.client
      · have interrupted := serves.interruptible raised
        refine ⟨0, .refused reference .cancelled, [], ledger.claim reference.name,
          fun limit _ => ?_, .refused interrupted .nil, noTask⟩
        rw [if_neg circular]
        exact (if_neg again).trans (if_pos raised)
      · obtain ⟨least, task, asked, same, started, after⟩ := serves.start reference.name
        refine ⟨least, _, [task],
          (ledger.claim reference.name).asked ⟨chain, reference.name⟩ asked,
          fun limit enough => ?_, .pending reference same .nil, after⟩
        have requested : (shelf.onBus flag limit).exchange.request reference.name
            ledger.world = some (task, asked) := started limit enough
        rw [if_neg circular]
        refine (if_neg again).trans ((if_neg raised).trans ?_)
        exact congrArg (Option.map _) requested

theorem planAll_pends (flag : Part σ Bool) (chain : List LogicalName) (references : List Reference)
    {tasks : List Task} {ledger : Ledger (Bus (Board σ))}
    (serves : depot.Serves shelf.stock tasks ledger.world) :
    ∃ least planned started after,
      (∀ limit, least ≤ limit →
        (shelf.onBus flag limit).planAll chain references ledger = some (planned, after)) ∧
      shelf.Pends (depot.Interruptible flag) planned started ∧
      depot.Serves shelf.stock (tasks ++ started) after.world := by
  induction references generalizing tasks ledger with
  | nil =>
      refine ⟨0, [], [], ledger, fun _ _ => rfl, .nil, ?_⟩
      rw [List.append_nil]
      exact serves
  | cons reference rest ih =>
      obtain ⟨first, entry, begun, between, plannedOne, pendsOne, servesBetween⟩ :=
        plan_pends flag chain reference serves
      obtain ⟨second, planned, started, after, plannedAll, pends, servesAfter⟩ :=
        ih servesBetween
      refine ⟨max first second, entry :: planned, begun ++ started, after, ?_,
        pendsOne.append pends, ?_⟩
      · intro limit enough
        unfold Analyzer.planAll
        rw [plannedOne limit (by omega)]
        simp only
        rw [plannedAll limit (by omega)]
      · rw [← List.append_assoc]
        exact servesAfter

theorem settle_bears (shelf : Shelf) (flag : Part σ Bool) (limit : Nat) (reference : Reference)
    (wasCancelled : Bool) {interrupted : Prop} (cause : wasCancelled = true → interrupted) :
    shelf.Bears interrupted ((shelf.onBus flag limit).settle reference
      (.ofAnswer (shelf.stock.answer? reference.name) wasCancelled)) := by
  unfold Memory.answer? Memory.fetch
  by_cases silent : shelf.stock.isSilent reference.name
  · have lacking : shelf.copybook? reference.name = none := if_pos silent
    rw [if_pos silent]
    cases wasCancelled with
    | false => exact lacking
    | true => exact cause rfl
  · have audible : shelf.stock.isSilent reference.name = false := Bool.eq_false_iff.mpr silent
    rw [if_neg silent]
    cases held : shelf.stock.copybooks.get? reference.name with
    | none =>
        change shelf.copybook? reference.name = none
        unfold copybook?
        rw [if_neg silent, held]
    | some text => exact ⟨rfl, audible, held⟩

theorem awaitAll_bears {planned : List (Planned Task)} {tasks : List Task}
    (pends : shelf.Pends (depot.Interruptible flag) planned tasks)
    {ledger : Ledger (Bus (Board σ))} (serves : depot.Serves shelf.stock tasks ledger.world) :
    ∃ settled after,
      (∀ limit, (shelf.onBus flag limit).awaitAll planned ledger = (settled, after)) ∧
      (∀ entry ∈ settled, shelf.Bears (depot.Interruptible flag) entry) ∧
      depot.Serves shelf.stock [] after.world := by
  induction pends generalizing ledger with
  | nil => exact ⟨[], ledger, fun _ => rfl, List.forall_mem_nil _, serves⟩
  | @refused reference refusal planned tasks grounded rest ih =>
      obtain ⟨settled, after, awaited, bears, servesAfter⟩ := ih serves
      refine ⟨.refused reference refusal :: settled, after, fun limit => ?_,
        List.forall_mem_cons.mpr ⟨grounded, bears⟩, servesAfter⟩
      unfold Analyzer.awaitAll
      rw [awaited limit]
  | @repeated reference planned tasks rest ih =>
      obtain ⟨settled, after, awaited, bears, servesAfter⟩ := ih serves
      refine ⟨.repeated reference :: settled, after, fun limit => ?_,
        List.forall_mem_cons.mpr ⟨trivial, bears⟩, servesAfter⟩
      unfold Analyzer.awaitAll
      rw [awaited limit]
  | @pending reference task same planned tasks rest ih =>
      obtain ⟨answered, servesBetween⟩ := serves.await (flag.get ledger.world.state.client)
      rw [same] at answered
      have closed : depot.Serves shelf.stock tasks
          (ledger.moved (task.close ledger.world)).world := servesBetween
      obtain ⟨settled, after, awaited, bears, servesAfter⟩ := ih closed
      have own := shelf.settle_bears flag 0 reference (flag.get ledger.world.state.client)
        serves.interruptible
      refine ⟨_ :: settled, after, fun limit => ?_, List.forall_mem_cons.mpr ⟨own, bears⟩,
        servesAfter⟩
      have taken : (shelf.onBus flag limit).exchange.await task ledger.world = _ := answered
      unfold Analyzer.awaitAll
      simp only
      rw [taken, awaited limit]
      rfl

/-- What follows the references of a copybook comes to an end with enough deliveries allowed, and
its inclusions are those that the references unfold into. -/
def Followed (shelf : Shelf) (depot : Depot σ) (interrupted : Prop) (chain : List LogicalName)
    (follow : Nat → LogicalName → List Reference → Ledger (Bus (Board σ)) →
      Option (Inclusions × Ledger (Bus (Board σ)))) : Prop :=
  ∀ name references ledger, depot.Serves shelf.stock [] ledger.world →
    ∃ least below after,
      (∀ limit, least ≤ limit → follow limit name references ledger = some (below, after)) ∧
      shelf.Unfolds interrupted (chain ++ [name]) references below ∧
      depot.Serves shelf.stock [] after.world

theorem includeAll_unfolds {interrupted : Prop} {chain : List LogicalName}
    {follow : Nat → LogicalName → List Reference → Ledger (Bus (Board σ)) →
      Option (Inclusions × Ledger (Bus (Board σ)))}
    (followed : shelf.Followed depot interrupted chain follow) {references : List Reference}
    {settled : List Settled}
    (fits : List.Forall₂ (Settled.Fits shelf.reading shelf.config chain) references settled)
    (bears : ∀ entry ∈ settled, shelf.Bears interrupted entry)
    {ledger : Ledger (Bus (Board σ))} (serves : depot.Serves shelf.stock [] ledger.world) :
    ∃ least tree after,
      (∀ limit, least ≤ limit →
        Analyzer.includeAll shelf.reading (follow limit) settled ledger = some (tree, after)) ∧
      shelf.Unfolds interrupted chain references tree ∧
      depot.Serves shelf.stock [] after.world := by
  induction fits generalizing ledger with
  | nil => exact ⟨0, .none, ledger, fun _ _ => rfl, .none chain, serves⟩
  | @cons reference entry references settled first others ih =>
      obtain ⟨own, later⟩ := List.forall_mem_cons.mp bears
      cases entry with
      | refused of refusal =>
          obtain ⟨rfl, warranted⟩ := first
          obtain ⟨least, tree, after, included, unfolds, servesAfter⟩ := ih later serves
          refine ⟨least, .refused of refusal tree, after, fun limit enough => ?_,
            .refused warranted own unfolds, servesAfter⟩
          simp only [Analyzer.includeAll, included limit enough, Option.map_some]
      | repeated of =>
          obtain ⟨rfl, admitted, shared⟩ := first
          obtain ⟨least, tree, after, included, unfolds, servesAfter⟩ := ih later serves
          refine ⟨least, .repeated of tree, after, fun limit enough => ?_,
            .repeated shared admitted unfolds, servesAfter⟩
          simp only [Analyzer.includeAll, included limit enough, Option.map_some]
      | resolved of text uri =>
          obtain ⟨rfl, admitted⟩ := first
          obtain ⟨rfl, audible, held⟩ := own
          have kept : shelf.copybook? of.name =
              (shelf.reading.document of.name.uri text).toOption := by
            unfold copybook?
            rw [if_neg (Bool.eq_false_iff.mp audible), held]
          cases read : shelf.reading.document of.name.uri text with
          | error error =>
              rw [read] at kept
              obtain ⟨least, tree, after, included, unfolds, servesAfter⟩ := ih later serves
              refine ⟨least, .refused of (.broken error) tree, after, fun limit enough => ?_,
                .refused ⟨admitted, _, text, read⟩ kept unfolds, servesAfter⟩
              simp only [Analyzer.includeAll, read, included limit enough, Option.map_some]
          | ok document =>
              rw [read] at kept
              obtain ⟨above, below, between, went, inside, servesBetween⟩ :=
                followed of.name document.references ledger serves
              obtain ⟨least, tree, after, included, unfolds, servesAfter⟩ :=
                ih later servesBetween
              refine ⟨max above least, .included of of.name.uri document.context below tree,
                after, fun limit enough => ?_, .included admitted kept inside unfolds,
                servesAfter⟩
              simp only [Analyzer.includeAll, read, went limit (by omega),
                included limit (by omega), Option.map_some]

theorem explore_unfolds (flag : Part σ Bool) {deeper : Nat} {chain : List LogicalName}
    (depth : chain.length + deeper = shelf.config.maxDepth) (references : List Reference)
    {ledger : Ledger (Bus (Board σ))} (serves : depot.Serves shelf.stock [] ledger.world) :
    ∃ least tree after,
      (∀ limit, least ≤ limit →
        (shelf.onBus flag limit).explore deeper chain references ledger = some (tree, after)) ∧
      shelf.Unfolds (depot.Interruptible flag) chain references tree ∧
      depot.Serves shelf.stock [] after.world := by
  induction deeper generalizing chain references ledger with
  | zero =>
      refine ⟨0, references.foldr (fun reference rest =>
        .refused reference ((shelf.onBus flag 0).refusalAtLimit chain reference) rest) .none,
        ledger, fun _ _ => rfl, ?_, serves⟩
      induction references with
      | nil => exact .none chain
      | cons reference rest ih =>
          refine .refused (Analyzer.refusalAtLimit_warranted depth reference) ?_ ih
          unfold Analyzer.refusalAtLimit
          split
          · trivial
          · trivial
  | succ deeper ih =>
      have room : chain.length < shelf.config.maxDepth := by omega
      obtain ⟨first, planned, tasks, between, plannedAll, pends, servesBetween⟩ :=
        planAll_pends flag chain references serves
      obtain ⟨settled, waited, awaited, bears, servesWaited⟩ := awaitAll_bears pends servesBetween
      have plans := Analyzer.planAll_fits room (plannedAll first (Nat.le_refl first))
      have fits := Analyzer.awaitAll_fits plans between
      rw [awaited first] at fits
      have followed : shelf.Followed depot (depot.Interruptible flag) chain
          (fun limit name => (shelf.onBus flag limit).explore deeper (chain ++ [name])) := by
        intro name references ledger serves
        apply ih _ references serves
        rw [List.length_append, List.length_singleton]
        omega
      obtain ⟨second, tree, after, included, unfolds, servesAfter⟩ :=
        includeAll_unfolds followed fits bears servesWaited
      refine ⟨max first second, tree, after, fun limit enough => ?_, unfolds, servesAfter⟩
      unfold Analyzer.explore
      rw [plannedAll limit (by omega)]
      simp only
      rw [awaited limit]
      exact included limit (by omega)

def roots (shelf : Shelf) : Subject → List Reference
  | .copybook name => [Analyzer.requestOf name]
  | .document uri text =>
      match shelf.reading.document uri text with
      | .error _ => []
      | .ok document => document.references

theorem roots_onBus (shelf : Shelf) (flag : Part σ Bool) (limit : Nat) (subject : Subject) :
    (shelf.onBus flag limit).roots subject = shelf.roots subject := by
  cases subject with
  | copybook name => rfl
  | document uri text => rfl

theorem run_unfolds (shelf : Shelf) (flag : Part σ Bool) {bus : Bus (Board σ)}
    (attached : depot.Attached shelf.stock [] bus) (subject : Subject) :
    ∃ least tree after,
      shelf.Unfolds (depot.Interruptible flag) [] (shelf.roots subject) tree ∧
        ∀ limit, least ≤ limit →
          (shelf.onBus flag limit).explore shelf.config.maxDepth [] (shelf.roots subject)
              (.start bus) = some (tree, after) ∧
            (shelf.onBus flag limit).run subject bus =
              some ⟨(tree.contexts (.ofTrail (rootDepth subject) [])).foldl Context.merge
                ((shelf.onBus flag limit).base subject), after.requests, after.world⟩ := by
  have serves : depot.Serves shelf.stock [] (Ledger.start bus).world := ⟨0, attached⟩
  have depth : ([] : List LogicalName).length + shelf.config.maxDepth = shelf.config.maxDepth :=
    Nat.zero_add _
  obtain ⟨least, tree, after, explored, unfolds, _⟩ :=
    explore_unfolds flag depth (shelf.roots subject) serves
  refine ⟨least, tree, after, unfolds, fun limit enough => ⟨explored limit enough, ?_⟩⟩
  have course : (shelf.onBus flag limit).explore (shelf.onBus flag limit).config.maxDepth []
      ((shelf.onBus flag limit).roots subject) (.start bus) = some (tree, after) := by
    rw [roots_onBus]
    exact explored limit enough
  rw [Analyzer.run_eq_explore, course]
  rfl

end Shelf

end CobolAnalysis
