/-
Tasks: one copybook asked for over the bus.

A task listens for answers before it asks, so an answer that is given while the
request is being delivered is heard. It keeps the first answer for its own name
and ignores all others. Waiting for a task takes that answer, if there is one,
and ends the task's registration.
-/

import CobolAnalysis.Bus.Dispatch
import CobolAnalysis.Resolution.Outcome
import CobolAnalysis.Table

namespace CobolAnalysis

/-- The state of a bus that carries tasks: their answers by registration, and the state of all
other observers. -/
structure Board (σ : Type) where
  answers : Table Nat FetchResult
  client : σ

namespace Board

variable {σ : Type}

def ofClient (client : σ) : Board σ := ⟨.empty, client⟩

def keepFirst (board : Board σ) (id : Nat) (result : FetchResult) : Board σ :=
  { board with answers := board.answers.alter id fun kept => kept.getD result }

def forget (board : Board σ) (id : Nat) : Board σ :=
  { board with answers := board.answers.erase id }

def clientPart : Part (Board σ) σ where
  get := client
  set := fun value board => { board with client := value }
  get_set := fun _ _ => rfl
  set_get := fun _ => rfl
  set_set := fun _ _ _ => rfl

end Board

/-- A copybook that was asked for, and the registration that listens for the answer. -/
structure Task where
  name : LogicalName
  id : Nat
  deriving DecidableEq

namespace Task

variable {σ : Type}

def listener (name : LogicalName) : Observer (Board σ) := fun id event =>
  match event with
  | .scan _ => .done
  | .fetch result =>
      if result.name = name then .modify (fun board => board.keepFirst id result) .done else .done

/-- Listens, then asks. The deadline, which is the moment of asking and the timeout after it, is a
moment that the clock can represent. -/
def start (limit : Nat) (name : LogicalName) (bus : Bus (Board σ)) :
    Option (Task × Bus (Board σ)) :=
  let listening := bus.subscribe .fetchResult (listener name)
  (listening.publish limit (.scan name)).map fun asked => (⟨name, bus.registry.nextId⟩, asked)

def answer? (task : Task) (bus : Bus (Board σ)) : Option FetchResult :=
  bus.state.answers.get? task.id

def isResolved (task : Task) (bus : Bus (Board σ)) : Bool := (task.answer? bus).isSome

def close (task : Task) (bus : Bus (Board σ)) : Bus (Board σ) :=
  { bus.unsubscribe task.id with state := bus.state.forget task.id }

/-- Nothing is delivered while a task is waited for, so it has its answer already or never. -/
def await (task : Task) (wasCancelled : Bool) (bus : Bus (Board σ)) :
    Resolution × Bus (Board σ) :=
  (.ofAnswer (task.answer? bus) wasCancelled, task.close bus)

/-- However often the wait looks, it ends with what `await` gives for its last look. -/
theorem ofGlances_eq_await {task : Task} {bus : Bus (Board σ)} {glances : List Glance}
    (steady : ∀ glance ∈ glances, glance.answer = task.answer? bus) :
    Resolution.ofGlances glances =
      (glances.find? fun glance => (task.answer? bus).isSome || glance.final).map fun last =>
        (task.await last.cancelled bus).1 :=
  Resolution.ofGlances_steady steady

end Task

end CobolAnalysis
