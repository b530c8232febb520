/-
The bus: events go to the observers registered for their kind.

Who receives an event is settled when it is published. An event published while
another is being delivered waits until that one has reached all its observers;
waiting events are delivered in the order in which they were published. A panic
ends the procedure of the observer that panicked, and nothing else. One thread
publishes, so an event that finds a delivery under way was published from within
it.

Observers that answer each other for ever would keep a delivery from ending, so
publishing is given the greatest number of events it may deliver, and has no
result if there are more.
-/

import CobolAnalysis.Bus.Registry

namespace CobolAnalysis

/-- An event on its way, with the registrations that will receive it. -/
structure Delivery (σ : Type) where
  event : Event
  recipients : List (Registration σ)

inductive Dispatch (σ : Type) where
  | idle
  /-- Some event is being delivered; the others wait, the next one first. -/
  | delivering (waiting : List (Delivery σ))

namespace Dispatch

def waiting {σ : Type} : Dispatch σ → List (Delivery σ)
  | idle => []
  | delivering waiting => waiting

end Dispatch

structure Bus (σ : Type) where
  registry : Registry σ
  dispatch : Dispatch σ
  state : σ

namespace Bus

variable {σ : Type}

def ofState (state : σ) : Bus σ := ⟨.empty, .idle, state⟩

def count (bus : Bus σ) (kind : EventKind) : Nat := bus.registry.count kind

/-- The bus with a further observer; its registration has the next number. -/
def subscribe (bus : Bus σ) (kind : EventKind) (observer : Observer σ) : Bus σ :=
  { bus with registry := bus.registry.add kind observer }

def unsubscribe (bus : Bus σ) (id : Nat) : Bus σ :=
  { bus with registry := bus.registry.remove id }

def delivery (bus : Bus σ) (event : Event) : Delivery σ :=
  ⟨event, bus.registry.observers event.kind⟩

/-- The event takes its place behind all that wait. -/
def enqueue (bus : Bus σ) (event : Event) : Bus σ :=
  { bus with dispatch := .delivering (bus.dispatch.waiting ++ [bus.delivery event]) }

def perform (bus : Bus σ) : Procedure σ → Bus σ
  | .done => bus
  | .panic => bus
  | .publish event rest => (bus.enqueue event).perform rest
  | .subscribe kind observer next =>
      (bus.subscribe kind observer).perform (next bus.registry.nextId)
  | .unsubscribe id next => (bus.unsubscribe id).perform (next (bus.registry.holds id))
  | .read next => bus.perform (next bus.state)
  | .write state rest => { bus with state := state }.perform rest

/-- Each recipient runs its procedure for the event, in order. -/
def deliver (bus : Bus σ) (event : Event) : List (Registration σ) → Bus σ
  | [] => bus
  | recipient :: others =>
      (bus.perform (recipient.observer recipient.id event)).deliver event others

/-- Delivers at most `limit` events, until none waits. -/
def drain : Nat → Bus σ → Option (Bus σ)
  | limit, bus =>
      match bus.dispatch with
      | .idle => some bus
      | .delivering [] => some { bus with dispatch := .idle }
      | .delivering (next :: later) =>
          match limit with
          | 0 => none
          | remaining + 1 =>
              drain remaining
                ({ bus with dispatch := .delivering later }.deliver next.event next.recipients)

/-- Publishing from within an observer only lines the event up. -/
def publish (limit : Nat) (bus : Bus σ) (event : Event) : Option (Bus σ) :=
  match bus.dispatch with
  | .idle => drain limit (bus.enqueue event)
  | .delivering _ => some (bus.enqueue event)

def display (bus : Bus σ) : String :=
  "EventBus \x7b scan_request_subscribers: " ++ toString (bus.count .scanRequest) ++
    ", fetch_result_subscribers: " ++ toString (bus.count .fetchResult) ++ " \x7d"

end Bus

def Registration.display (id : Nat) (kind : EventKind) : String :=
  "Subscription \x7b id: SubscriptionId(" ++ toString id ++ "), kind: " ++ kind.label ++ " \x7d"

end CobolAnalysis
