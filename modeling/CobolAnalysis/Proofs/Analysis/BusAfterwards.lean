/-
An analysis leaves the bus as it found it.

Each turn in which a copybook is asked for adds the registration of its task behind all
others, and waiting for the task ends it. The tasks of one document are waited for in the
order in which they were made, and before anything below is asked for, so their
registrations are always the last ones and are gone when the next document is followed.
Nothing is left of an analysis but the numbers it has used up, one for each request,
provided that no observer makes or ends a registration of its own on the way.
-/

import CobolAnalysis.Proofs.Analysis.Cancellation
import CobolAnalysis.Proofs.Bus.Stillness

namespace CobolAnalysis

open Parse (Reference)
open Scenario.Bench (Subject)

variable {σ : Type}

/-! ### Runs of turns, taken apart -/

namespace Analyzer

variable {ω τ : Type} {analyzer : Analyzer ω τ} {ledger last : Ledger ω}

theorem Passes.split {first second : List (Turn ω τ)}
    (passes : analyzer.Passes ledger (first ++ second) last) :
    ∃ between, analyzer.Passes ledger first between ∧ analyzer.Passes between second last := by
  induction first generalizing ledger with
  | nil => exact ⟨ledger, rfl, passes⟩
  | cons turn rest ih =>
      obtain ⟨here, makes, onward⟩ := passes
      obtain ⟨between, earlier, later⟩ := ih onward
      exact ⟨between, ⟨here, makes, earlier⟩, later⟩

theorem Passes.kept {holds : ω → Prop} (keeps : analyzer.exchange.Keeps holds)
    {turns : List (Turn ω τ)} (passes : analyzer.Passes ledger turns last)
    (held : holds ledger.world) : holds last.world := by
  induction turns generalizing ledger with
  | nil =>
      cases passes
      exact held
  | cons turn later ih =>
      obtain ⟨rfl, makes, onward⟩ := passes
      exact ih onward (makes.keeps keeps held)

end Analyzer

/-! ### The registrations before and after a turn -/

/-- No observer makes or ends a registration while a request that is made in the turn is being
delivered, with all that is published on the way. -/
def Turn.Quiet (turn : Turn (Bus (Board σ)) Task) : Prop :=
  ∀ task, turn.deed = .asked task → ∀ marks moment,
    Moment.Run Moment.Undisturbed
        (Task.listening turn.reference.name (fun _ => .done) turn.before.world none []) marks
        moment →
      moment.Quiet

def Turn.books (turn : Turn (Bus (Board σ)) Task) (registry : Registry (Board σ)) :
    Registry (Board σ) :=
  match turn.deed with
  | .asked _ => registry.add .fetchResult (Task.listener turn.reference.name)
  | .awaited task => registry.remove task.id
  | _ => registry

def opened (turns : List (Turn (Bus (Board σ)) Task)) : List (Registration (Board σ)) :=
  (turns.filterMap Turn.ticket?).map fun entry => entry.2.2.registration

def closed (turns : List (Turn (Bus (Board σ)) Task)) : List (Registration (Board σ)) :=
  (turns.filterMap Turn.awaited?).map fun entry => entry.2.2.registration

theorem Task.start_registry {limit : Nat} {name : LogicalName} {bus asked : Bus (Board σ)}
    {task : Task} (started : Task.start limit name bus = some (task, asked))
    (quiet : ∀ marks moment, Moment.Run Moment.Undisturbed
      (Task.listening name (fun _ => .done) bus none []) marks moment → moment.Quiet) :
    task = ⟨name, bus.registry.nextId⟩ ∧
      asked.registry = bus.registry.add .fetchResult (Task.listener name) := by
  constructor
  · obtain ⟨_, _, same⟩ := Option.map_eq_some_iff.mp started
    cases same
    rfl
  · obtain ⟨marks, run⟩ := Task.start_run Moment.Undisturbed started none
    exact run.registry_eq quiet

namespace Analyzer

variable {reading : Reading} {config : Config} {limit : Nat} {flag : Part σ Bool}
  {turn : Turn (Bus (Board σ)) Task} {turns plans waits below : List (Turn (Bus (Board σ)) Task)}
  {ledger last : Ledger (Bus (Board σ))} {trail : List Reference} {tree : Inclusions}

theorem Makes.books (makes : (Analyzer.mk reading config (.overBus limit flag)).Makes turn)
    (quiet : turn.Quiet) :
    turn.after.world.registry = turn.books turn.before.world.registry ∧
      ∀ task, turn.deed = .asked task →
        task = ⟨turn.reference.name, turn.before.world.registry.nextId⟩ := by
  cases makes with
  | asked admitted first going requested =>
      obtain ⟨made, added⟩ := Task.start_registry requested (quiet _ rfl)
      refine ⟨added, ?_⟩
      rintro _ ⟨⟩
      exact made
  | _ => exact ⟨rfl, fun _ other => nomatch other⟩

theorem Passes.nextId
    (passes : (Analyzer.mk reading config (.overBus limit flag)).Passes ledger turns last)
    (quiet : ∀ turn ∈ turns, turn.Quiet) :
    last.world.registry.nextId =
      ledger.world.registry.nextId + (turns.flatMap Turn.asked).length := by
  induction turns generalizing ledger with
  | nil =>
      cases passes
      rfl
  | cons turn later ih =>
      obtain ⟨rfl, makes, onward⟩ := passes
      obtain ⟨here, others⟩ := List.forall_mem_cons.mp quiet
      have grown : turn.after.world.registry.nextId =
          turn.before.world.registry.nextId + turn.asked.length := by
        rw [(makes.books here).1]
        obtain ⟨_, _, deed, _, _⟩ := turn
        cases deed <;> rfl
      rw [ih onward others, grown, List.flatMap_cons, List.length_append, Nat.add_assoc]

/-! ### Tasks are started and waited for -/

/-- While nothing is waited for, the tasks that are started line up behind all registrations. -/
theorem Passes.opens
    (passes : (Analyzer.mk reading config (.overBus limit flag)).Passes ledger turns last)
    (quiet : ∀ turn ∈ turns, turn.Quiet) (unwaited : turns.filterMap Turn.awaited? = []) :
    last.world.registry.registrations =
      ledger.world.registry.registrations ++ opened turns := by
  induction turns generalizing ledger with
  | nil =>
      cases passes
      exact (List.append_nil _).symm
  | cons turn later ih =>
      obtain ⟨rfl, makes, onward⟩ := passes
      obtain ⟨here, others⟩ := List.forall_mem_cons.mp quiet
      obtain ⟨books, numbered⟩ := makes.books here
      obtain ⟨trail, reference, deed, before, after⟩ := turn
      cases deed with
      | awaited ticket => cases unwaited
      | asked task =>
          have line : after.world.registry.registrations =
              before.world.registry.registrations ++ [task.registration] := by
            rw [books, numbered task rfl]
            rfl
          rw [ih onward others unwaited, line, List.append_assoc]
          rfl
      | _ =>
          rw [ih onward others unwaited, books]
          rfl

/-- Waiting for the tasks that were made last, in their order, ends their registrations and no
others. -/
theorem Passes.closes {standing : List (Registration (Board σ))}
    (passes : (Analyzer.mk reading config (.overBus limit flag)).Passes ledger turns last)
    (quiet : ∀ turn ∈ turns, turn.Quiet) (unasked : turns.filterMap Turn.ticket? = [])
    (present : ledger.world.registry.registrations = standing ++ closed turns) :
    last.world.registry.registrations = standing := by
  induction turns generalizing ledger with
  | nil =>
      cases passes
      exact present.trans (List.append_nil _)
  | cons turn later ih =>
      obtain ⟨rfl, makes, onward⟩ := passes
      obtain ⟨here, others⟩ := List.forall_mem_cons.mp quiet
      have books := (makes.books here).1
      obtain ⟨trail, reference, deed, before, after⟩ := turn
      cases deed with
      | asked ticket => cases unasked
      | awaited task =>
          have ended : after.world.registry.registrations = standing ++ closed later := by
            rw [books]
            exact Registry.remove_middle present
          exact ih onward others unasked ended
      | _ =>
          have same : after.world.registry.registrations = standing ++ closed later := by
            rw [books]
            exact present
          exact ih onward others unasked same

theorem Told.level_returns
    (told : (Analyzer.mk reading config (.overBus limit flag)).Told trail tree plans waits below)
    (passes : (Analyzer.mk reading config (.overBus limit flag)).Passes ledger (plans ++ waits)
      last)
    (quiet : ∀ turn ∈ plans ++ waits, turn.Quiet) :
    last.world.registry.registrations = ledger.world.registry.registrations := by
  obtain ⟨level, unwaited, unasked⟩ := told.asked_level
  obtain ⟨quietPlans, quietWaits⟩ := List.forall_mem_append.mp quiet
  obtain ⟨between, planned, waited⟩ := passes.split
  have same : opened plans = closed waits := by
    unfold opened closed
    rw [level]
  refine waited.closes quietWaits unasked ?_
  rw [planned.opens quietPlans unwaited, same]

theorem Told.below_returns
    (told : (Analyzer.mk reading config (.overBus limit flag)).Told trail tree plans waits below)
    (passes : (Analyzer.mk reading config (.overBus limit flag)).Passes ledger below last)
    (quiet : ∀ turn ∈ below, turn.Quiet) :
    last.world.registry.registrations = ledger.world.registry.registrations := by
  induction told generalizing ledger last with
  | none =>
      cases passes
      rfl
  | barred others ih | «repeated» others ih | stopped others ih => exact ih passes quiet
  | failed settled others ih | broken settled unreadable others ih => exact ih passes quiet
  | included settled read inside others ihInside ih =>
      obtain ⟨ended, inward, onward⟩ := passes.split
      obtain ⟨waited, level, deeper⟩ := inward.split
      obtain ⟨quietInward, quietOnward⟩ := List.forall_mem_append.mp quiet
      obtain ⟨quietLevel, quietDeeper⟩ := List.forall_mem_append.mp quietInward
      rw [ih onward quietOnward, ihInside deeper quietDeeper,
        inside.level_returns level quietLevel]

theorem Tells.returns
    (tells : (Analyzer.mk reading config (.overBus limit flag)).Tells trail tree turns)
    (passes : (Analyzer.mk reading config (.overBus limit flag)).Passes ledger turns last)
    (quiet : ∀ turn ∈ turns, turn.Quiet) :
    last.world.registry.registrations = ledger.world.registry.registrations := by
  obtain ⟨plans, waits, below, rfl, told⟩ := tells
  obtain ⟨waited, level, deeper⟩ := passes.split
  obtain ⟨quietLevel, quietDeeper⟩ := List.forall_mem_append.mp quiet
  rw [told.below_returns deeper quietDeeper, told.level_returns level quietLevel]

end Analyzer

/-! ### Buses at rest, and buses on which everyone is still -/

theorem keeps_idle (limit : Nat) (flag : Part σ Bool) :
    (Exchange.overBus limit flag).Keeps fun bus => bus.dispatch = .idle where
  request := by
    intro name bus task asked started idle
    obtain ⟨_, published, same⟩ := Option.map_eq_some_iff.mp started
    cases same
    have resting : (bus.subscribe .fetchResult (Task.listener name)).dispatch = .idle := idle
    unfold Bus.publish at published
    rw [resting] at published
    exact (Moment.run_drain Moment.Undisturbed published).1
  await := fun _ _ idle => idle

theorem Task.listening_still {bus : Bus (Board σ)} (still : bus.Still) (name : LogicalName) :
    (Task.listening name (fun _ => .done) bus none []).Still := by
  refine ⟨fun registration member => ?_, still.pending, ?_⟩
  · rcases List.mem_append.mp member with old | new
    · exact still.registered registration old
    · rw [List.mem_singleton.mp new]
      intro event board
      change (Task.listener name bus.registry.nextId event).Unobtrusive _ _ board
      unfold Task.listener
      split
      · trivial
      · split
        · exact ⟨trivial, trivial⟩
        · trivial
  · rintro _ ⟨⟩
    exact ⟨trivial, trivial⟩

theorem keeps_still (limit : Nat) (flag : Part σ Bool) :
    (Exchange.overBus limit flag).Keeps Bus.Still where
  request := by
    intro name bus task asked started still
    obtain ⟨marks, run⟩ := Task.start_run Moment.Undisturbed started none
    exact run.still (Task.listening_still still name)
  await := by
    intro task bus still
    refine ⟨fun registration member => ?_, still.pending, fun _ none => nomatch none⟩
    exact still.registered registration (List.mem_filter.mp member).1

theorem Analyzer.Passes.quiet {reading : Reading} {config : Config} {limit : Nat}
    {flag : Part σ Bool} {ledger last : Ledger (Bus (Board σ))}
    {turns : List (Turn (Bus (Board σ)) Task)}
    (passes : (Analyzer.mk reading config (.overBus limit flag)).Passes ledger turns last)
    (still : ledger.world.Still) : ∀ turn ∈ turns, turn.Quiet := by
  intro turn member _ _ marks moment run
  have before := (passes.keeps (keeps_still limit flag) still turn member).1
  exact (run.still (Task.listening_still before turn.reference.name)).quiet

/-! ### Whole analyses -/

/-- The second bus is the first one, but for what the observers made of the state they share, and
for the numbers that were used up. -/
structure Bus.Restored (before after : Bus (Board σ)) (used : Nat) : Prop where
  registrations : after.registry.registrations = before.registry.registrations
  observers : ∀ kind, after.registry.observers kind = before.registry.observers kind
  numbers : after.registry.nextId = before.registry.nextId + used

/-- Whatever is answered, whatever panics and whenever it is cancelled, an analysis that began with
a bus at rest ends with one, and the registrations are what they were, unless an observer made
or ended one while a request was being delivered. Each request has used up one number. -/
theorem bus_restored (reading : Reading) (config : Config) (limit : Nat) (flag : Part σ Bool)
    (subject : Subject) {world : Bus (Board σ)} {outcome : Outcome (Bus (Board σ))}
    (ran : Analyzer.run ⟨reading, config, .overBus limit flag⟩ subject world = some outcome) :
    let analyzer : Analyzer (Bus (Board σ)) Task := ⟨reading, config, .overBus limit flag⟩
    (∃ tree turns, analyzer.Recounts subject world tree turns outcome) ∧
      (∀ tree turns, analyzer.Recounts subject world tree turns outcome →
        ((∀ turn ∈ turns, turn.Quiet) → world.Restored outcome.world outcome.requests.length) ∧
          (world.Still → ∀ turn ∈ turns, turn.Quiet)) ∧
      (world.dispatch = .idle → outcome.world.dispatch = .idle) ∧
      (analyzer.journaled.run subject (world, [])).map (fun watched => watched.world.2) =
        some (outcome.requests.map Request.name) := by
  intro analyzer
  obtain ⟨tree, turns, recounts, _⟩ := Analyzer.run_recounts ran
  refine ⟨⟨tree, turns, recounts⟩, fun tree turns recounts => ?_, ?_, ?_⟩
  · obtain ⟨ledger, passes, ends⟩ := recounts.passes_to ran
    refine ⟨fun quiet => ?_, passes.quiet⟩
    have registrations := recounts.tells.returns passes quiet
    rw [← ends, recounts.requests]
    refine ⟨registrations, fun kind => ?_, passes.nextId quiet⟩
    unfold Registry.observers
    rw [registrations]
    rfl
  · obtain ⟨ledger, passes, ends⟩ := recounts.passes_to ran
    intro idle
    rw [← ends]
    exact passes.kept (keeps_idle limit flag) idle
  · rw [Analyzer.run_journaled, ran]
    rfl

namespace Scenario

theorem Script.respond_still (id : Nat) (event : Event) (script : Script) :
    (Script.respond id event).Unobtrusive (fun _ => True) (fun _ => True) script := by
  cases event with
  | fetch result => trivial
  | scan name =>
      refine ⟨trivial, ?_⟩
      change (reply name (onRequest name script)).Unobtrusive _ _ _
      unfold reply
      split
      · trivial
      · exact Procedure.Unobtrusive.publishAll _ (fun _ _ => trivial) _

theorem Bench.still_withMemory (script : Script) (memory : Provider.Memory) :
    (withMemory script memory).Still := by
  refine ⟨?_, List.forall_mem_nil _, fun _ none => nomatch none⟩
  have onBoard : ∀ (procedure : Procedure (Bench Provider.Memory)) board,
      procedure.Unobtrusive (fun _ => True) (fun _ => True) board.client →
        (procedure.within Board.clientPart).Unobtrusive (fun _ => True) (fun _ => True) board :=
    fun procedure board unobtrusive =>
      Procedure.Unobtrusive.within Board.clientPart (fun _ _ _ _ => trivial) procedure board trivial
        unobtrusive
  refine List.forall_mem_cons.mpr ⟨fun event board => onBoard _ board ?_,
    List.forall_mem_singleton.mpr fun event board => onBoard _ board ?_⟩
  · exact Procedure.Unobtrusive.within scriptPart (fun _ _ _ _ => trivial) _ _ trivial
      (Script.respond_still 0 event board.client.script)
  · have answers : (Provider.Memory.respond 1 event).Unobtrusive (fun _ => True) (fun _ => True)
        board.client.provider := by
      cases event with
      | fetch result => trivial
      | scan name => exact ⟨trivial, Procedure.Unobtrusive.publishAll _ (fun _ _ => trivial) _⟩
    exact Procedure.Unobtrusive.within providerPart (fun _ _ _ _ => trivial) _ _ trivial answers

namespace Sample

def stumbling : Bus (Board (Bench Provider.Memory)) :=
  Bench.withMemory { script with cancelOn := [inner.text] } stock

end Sample

end Scenario

section Sample

open Scenario

/-- Of three references, one is without an answer, one has a panic and a cancellation on its way,
and one is not asked for. -/
theorem sample_bus_restored :
    ∃ outcome,
      Sample.analyzer.run (.document "root" Sample.silentFirst) Sample.stumbling = some outcome ∧
      outcome.requests.map Request.name = [Sample.silent, Sample.inner] ∧
      outcome.context.diagnostics.map (fun diagnostic => diagnostic.code) =
        [some Diagnostic.Code.copybookCancelled, some Diagnostic.Code.copybookCancelled] ∧
      Sample.stumbling.Restored outcome.world 2 ∧ outcome.world.dispatch = .idle := by
  have evaluated : (Sample.analyzer.run (.document "root" Sample.silentFirst)
      Sample.stumbling).map (fun outcome => (outcome.requests.map Request.name,
        outcome.context.diagnostics.map (fun diagnostic => diagnostic.code))) =
      some ([Sample.silent, Sample.inner],
        [some Diagnostic.Code.copybookCancelled, some Diagnostic.Code.copybookCancelled]) := by
    decide +kernel
  obtain ⟨outcome, ran, same⟩ := Option.map_eq_some_iff.mp evaluated
  have requested : outcome.requests.map Request.name = [Sample.silent, Sample.inner] :=
    congrArg Prod.fst same
  obtain ⟨⟨tree, turns, recounts⟩, restores, rests, _⟩ :=
    bus_restored _ _ Bench.deliveryLimit Bench.cancelledPart _ ran
  obtain ⟨restored, quiet⟩ := restores tree turns recounts
  have used : outcome.requests.length = 2 := by
    rw [← List.length_map, requested]
    rfl
  refine ⟨outcome, ran, requested, congrArg Prod.snd same, ?_, rests rfl⟩
  rw [← used]
  exact restored (quiet (Bench.still_withMemory _ Sample.stock))

end Sample

end CobolAnalysis
