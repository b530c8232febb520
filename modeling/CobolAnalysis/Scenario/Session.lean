/-
Sessions on one bus: observers with reactions, providers and tasks under labels
of their own, one after the other as they are told.
-/

import CobolAnalysis.Resolution.Task
import CobolAnalysis.Scenario.Reactions

namespace CobolAnalysis.Scenario

/-- A provider of a session, and the registrations through which it is attached, the latest
first. -/
structure Attached where
  number : Nat
  registrations : List Nat

structure Session where
  bus : Bus (Board Cast)
  providers : Table String Attached
  nextProvider : Nat
  tasks : Table String Task

namespace Session

def start : Session := ⟨.ofState (.ofClient .empty), .empty, 0, .empty⟩

def deliveryLimit : Nat := 1000000

def cast (session : Session) : Cast := session.bus.state.client

def withCast (session : Session) (change : Cast → Cast) : Session :=
  { session with
    bus := { session.bus with
      state := { session.bus.state with client := change session.bus.state.client } } }

def cleared (session : Session) : Session := session.withCast fun cast => { cast with noted := [] }

/-! ### Observers -/

/-- The number of the registration made, unless the label is in use. -/
def subscribe (session : Session) (label : String) (kind : EventKind) (reactions : Reactions) :
    Option (Nat × Session) :=
  if session.cast.held.contains label then none
  else
    let id := session.bus.registry.nextId
    let observer := (reactions.observer label).within Board.clientPart
    let subscribed := { session with bus := session.bus.subscribe kind observer }
    some (id, subscribed.withCast fun cast => cast.hold label id)

/-- Whether the registration was still there; nothing for a label that is not in use. -/
def unsubscribe (session : Session) (label : String) : Option Bool × Session :=
  match session.cast.held.get? label with
  | none => (none, session)
  | some id =>
      (some (session.bus.registry.holds id),
        { session with bus := session.bus.unsubscribe id })

/-- Whether the label was in use. -/
def drop (session : Session) (label : String) : Bool × Session :=
  match session.cast.held.get? label with
  | none => (false, session)
  | some id =>
      let without := { session with bus := session.bus.unsubscribe id }
      (true, without.withCast fun cast => cast.release label)

def publish (session : Session) (event : Event) : Option Session :=
  (session.bus.publish deliveryLimit event).map fun bus => { session with bus := bus }

/-! ### Providers -/

/-- A new provider takes the label over; the attachments of the one that had it end. -/
def provide (session : Session) (label : String) (memory : Provider.Memory) : Session :=
  let number := session.nextProvider
  let ended := (session.providers.get? label).elim [] Attached.registrations
  let named := { session with
    bus := ended.foldl Bus.unsubscribe session.bus
    providers := session.providers.insert label ⟨number, []⟩
    nextProvider := number + 1 }
  named.withCast ((Cast.providerPart number).set memory)

def provider? (session : Session) (label : String) : Option Provider.Memory :=
  (session.providers.get? label).map fun attached =>
    (Cast.providerPart attached.number).get session.cast

def withProvider (session : Session) (label : String)
    (change : Provider.Memory → Provider.Memory) : Session :=
  match session.providers.get? label with
  | none => session
  | some attached => session.withCast ((Cast.providerPart attached.number).modify change)

/-- The number of the registration made; nothing for an unknown provider. -/
def attach (session : Session) (label : String) : Option (Nat × Session) :=
  (session.providers.get? label).map fun attached =>
    let id := session.bus.registry.nextId
    let part := (Cast.providerPart attached.number).within Board.clientPart
    (id,
      { session with
        bus := session.bus.subscribe .scanRequest (Provider.Memory.respond.within part)
        providers := session.providers.insert label
          { attached with registrations := id :: attached.registrations } })

/-- Whether there was an attachment to end. -/
def detach (session : Session) (label : String) : Bool × Session :=
  match session.providers.get? label with
  | none => (false, session)
  | some attached =>
      match attached.registrations with
      | [] => (false, session)
      | latest :: earlier =>
          (true,
            { session with
              bus := session.bus.unsubscribe latest
              providers := session.providers.insert label
                { attached with registrations := earlier } })

/-! ### Tasks -/

def close (session : Session) (task : Task) : Session :=
  { session with bus := task.close session.bus }

/-- An earlier task under the label is given up once the new one has asked. -/
def startTask (session : Session) (label : String) (name : LogicalName) :
    Option (Task × Session) :=
  (Task.start deliveryLimit name session.bus).map fun started =>
    let asked := { session with
      bus := started.2
      tasks := session.tasks.insert label started.1 }
    (started.1, ((session.tasks.get? label).map asked.close).getD asked)

def isResolved (session : Session) (label : String) : Option Bool :=
  (session.tasks.get? label).map fun task => task.isResolved session.bus

def withoutTask (session : Session) (label : String) : Session :=
  { session with tasks := session.tasks.erase label }

/-- The copybook the task had asked for. -/
def giveUp (session : Session) (label : String) : Option LogicalName × Session :=
  match session.tasks.get? label with
  | none => (none, session)
  | some task => (some task.name, (session.close task).withoutTask label)

def wait (session : Session) (label : String) : Option Resolution × Session :=
  match session.tasks.get? label with
  | none => (none, session)
  | some task =>
      let settled := task.await session.cast.cancelled session.bus
      (some settled.1, { session with bus := settled.2 }.withoutTask label)

/-! ### Cancelling -/

def setCancelled (session : Session) (value : Bool) : Session :=
  session.withCast fun cast => { cast with cancelled := value }

end Session

end CobolAnalysis.Scenario
