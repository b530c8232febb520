/-
A bus with a provider on which no analysis is cancelled.

Whether the analysis was cancelled is one more part of what the observers keep, and none
of them touches it.
-/

import CobolAnalysis.Proofs.Resolution.Depot

namespace CobolAnalysis

open Provider (Memory)

/-- Where the observers on a bus keep what an analysis depends on: the provider's memory, and
whether the analysis was cancelled. The rest of their state stays within `steady`. -/
structure Venue (σ : Type) where
  memory : Part σ Memory
  flag : Part σ Bool
  steady : σ → Prop
  apart : ∀ stock state, flag.get (memory.set stock state) = flag.get state
  counted : ∀ state, steady state → steady (memory.modify Memory.countRequest state)

namespace Venue

variable {σ : Type} (venue : Venue σ)

def provider : Observer (Board σ) := (Memory.respond.within venue.memory).within Board.clientPart

def Holds (stock : Memory) (state : σ) : Prop :=
  venue.memory.get state = stock ∧ venue.flag.get state = false ∧ venue.steady state

/-- An observer of requests that may publish foreign answers and may panic, but cancels nothing
and leaves registrations and the provider alone. -/
def Bystander (stock : Memory) (observer : Observer σ) : Prop :=
  ∀ id name count state, venue.Holds (stock.counting count) state →
    (observer id (.scan name)).Unobtrusive (stock.Foreign name)
      (venue.Holds (stock.counting count)) state

/-- The bus is at rest, one provider with `stock` is attached, all other observers of requests
are bystanders, and the tasks that are under way have the provider's answers. -/
structure Attached (stock : Memory) (tasks : List Task) (bus : Bus (Board σ)) : Prop where
  idle : bus.dispatch = .idle
  attended : ∃ before id after,
    bus.registry.observers .scanRequest = before ++ ⟨id, .scanRequest, venue.provider⟩ :: after ∧
      ∀ registration ∈ before ++ after, ∃ observer : Observer σ,
        registration.observer = observer.within Board.clientPart ∧ venue.Bystander stock observer
  listeners : bus.registry.observers .fetchResult = tasks.map Task.registration
  unused : ∀ id, bus.registry.nextId ≤ id → bus.state.answers.get? id = none
  answered : ∀ task ∈ tasks, bus.state.answers.get? task.id = stock.answer? task.name
  holds : venue.Holds stock bus.state.client

/-- The same place, with the flag among what stays as it is. -/
def depot : Depot σ where
  memory := venue.memory
  steady := fun state => venue.flag.get state = false ∧ venue.steady state
  counted := fun state holds =>
    ⟨(venue.apart _ _).trans holds.1, venue.counted state holds.2⟩

variable {venue} {stock : Memory} {tasks : List Task} {bus : Bus (Board σ)}

theorem attached_depot_iff :
    venue.depot.Attached stock tasks bus ↔ venue.Attached stock tasks bus := by
  constructor
  · rintro ⟨idle, attended, listeners, unused, answered, holds⟩
    exact ⟨idle, attended, listeners, unused, answered, holds⟩
  · rintro ⟨idle, attended, listeners, unused, answered, holds⟩
    exact ⟨idle, attended, listeners, unused, answered, holds⟩

theorem Attached.start (attached : venue.Attached stock tasks bus) (name : LogicalName) :
    ∃ least asked, (∀ limit, least ≤ limit →
        Task.start limit name bus = some (⟨name, bus.registry.nextId⟩, asked)) ∧
      venue.Attached (stock.counting 1) (tasks ++ [⟨name, bus.registry.nextId⟩]) asked := by
  obtain ⟨least, asked, started, after⟩ := (attached_depot_iff.mpr attached).start name
  exact ⟨least, asked, started, attached_depot_iff.mp after⟩

theorem Attached.await {task : Task} (attached : venue.Attached stock (task :: tasks) bus)
    (wasCancelled : Bool) :
    task.await wasCancelled bus =
        (.ofAnswer (stock.answer? task.name) wasCancelled, task.close bus) ∧
      venue.Attached stock tasks (task.close bus) := by
  obtain ⟨answered, after⟩ := (attached_depot_iff.mpr attached).await wasCancelled
  exact ⟨answered, attached_depot_iff.mp after⟩

end Venue

end CobolAnalysis
