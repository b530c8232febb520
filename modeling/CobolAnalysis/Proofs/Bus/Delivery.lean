/-
What the delivery of an event leaves behind.

An observer that keeps to itself may publish, panic and change the state, but
leaves the registrations alone. Performing such procedures only lines up events,
and whatever is true of every state they write is true of the state at the end.
-/

import CobolAnalysis.Bus.Dispatch
import Mathlib.Data.List.Nodup

namespace CobolAnalysis

variable {σ τ : Type}

namespace Registry

theorem ids_nodup (registry : Registry σ) (kind : EventKind) :
    ((registry.observers kind).map Registration.id).Nodup := by
  have ordered := registry.ordered.sublist (List.filter_sublist (p := fun registration =>
    registration.kind == kind))
  exact List.pairwise_map.mpr (ordered.imp Nat.ne_of_lt)

theorem id_lt_nextId (registry : Registry σ) (kind : EventKind) (registration : Registration σ)
    (member : registration ∈ registry.observers kind) : registration.id < registry.nextId :=
  registry.issued registration (List.mem_filter.mp member).1

theorem eq_of_id_eq (registry : Registry σ) {left right : Registration σ}
    (leftPresent : left ∈ registry.registrations) (rightPresent : right ∈ registry.registrations)
    (same : left.id = right.id) : left = right := by
  have distinct : (registry.registrations.map Registration.id).Nodup :=
    List.pairwise_map.mpr (registry.ordered.imp Nat.ne_of_lt)
  exact List.inj_on_of_nodup_map distinct leftPresent rightPresent same

theorem id_ne_of_kind_ne (registry : Registry σ) {kind other : EventKind} (different : kind ≠ other)
    (left right : Registration σ) (leftMember : left ∈ registry.observers kind)
    (rightMember : right ∈ registry.observers other) : left.id ≠ right.id := by
  intro sameId
  obtain ⟨leftPresent, leftKind⟩ := List.mem_filter.mp leftMember
  obtain ⟨rightPresent, rightKind⟩ := List.mem_filter.mp rightMember
  have same : left = right := registry.eq_of_id_eq leftPresent rightPresent sameId
  exact different ((beq_iff_eq.mp leftKind).symm.trans (same ▸ beq_iff_eq.mp rightKind))

end Registry

namespace Procedure

/-- Started in the given state, the procedure makes and ends no registration, publishes only
events that are allowed, and writes only states that are safe. -/
def Unobtrusive (allowed : Event → Prop) (safe : σ → Prop) : Procedure σ → σ → Prop
  | done, _ => True
  | panic, _ => True
  | publish event rest, state => allowed event ∧ rest.Unobtrusive allowed safe state
  | subscribe _ _ _, _ => False
  | unsubscribe _ _, _ => False
  | read next, state => (next state).Unobtrusive allowed safe state
  | write state rest, _ => safe state ∧ rest.Unobtrusive allowed safe state

theorem Unobtrusive.publishAll {allowed : Event → Prop} {safe : σ → Prop} (events : List Event)
    (each : ∀ event ∈ events, allowed event) (state : σ) :
    (Procedure.publishAll events).Unobtrusive allowed safe state := by
  induction events with
  | nil => trivial
  | cons event rest ih =>
      have headTail := List.forall_mem_cons.mp each
      exact ⟨headTail.1, ih headTail.2⟩

theorem within_publishAll (part : Part τ σ) (events : List Event) :
    (Procedure.publishAll events).within part = Procedure.publishAll events := by
  induction events with
  | nil => rfl
  | cons event rest ih => exact congrArg (Procedure.publish event) ih

theorem Unobtrusive.within {allowed : Event → Prop} {safe : σ → Prop} {whole : τ → Prop}
    (part : Part τ σ)
    (keeps : ∀ inner outer, safe inner → whole outer → whole (part.set inner outer))
    (procedure : Procedure σ) (state : τ) (unharmed : whole state)
    (quiet : procedure.Unobtrusive allowed safe (part.get state)) :
    (procedure.within part).Unobtrusive allowed whole state := by
  induction procedure generalizing state with
  | done => trivial
  | panic => trivial
  | publish event rest ih => exact ⟨quiet.1, ih state unharmed quiet.2⟩
  | subscribe kind observer next => exact quiet.elim
  | unsubscribe id next => exact quiet.elim
  | read next ih => exact ih (part.get state) state unharmed quiet
  | write inner rest ih =>
      have placed : whole (part.set inner state) := keeps inner state quiet.1 unharmed
      refine ⟨placed, ih (part.set inner state) placed ?_⟩
      rw [part.get_set]
      exact quiet.2

end Procedure

namespace Bus

variable {allowed : Event → Prop} {safe : σ → Prop}

/-- The bus in the midst of a delivery, with further events lined up and another state. -/
def lined (bus : Bus σ) (waiting : List (Delivery σ)) (events : List Event) (state : σ) : Bus σ :=
  ⟨bus.registry, .delivering (waiting ++ events.map bus.delivery), state⟩

theorem lined_nil (bus : Bus σ) (waiting : List (Delivery σ))
    (busy : bus.dispatch = .delivering waiting) : bus.lined waiting [] bus.state = bus := by
  unfold lined
  rw [List.map_nil, List.append_nil, ← busy]

theorem lined_lined (bus : Bus σ) (waiting : List (Delivery σ)) (first second : List Event)
    (between state : σ) :
    (bus.lined waiting first between).lined (waiting ++ first.map bus.delivery) second state =
      bus.lined waiting (first ++ second) state := by
  unfold lined
  rw [List.map_append, ← List.append_assoc]
  rfl

theorem enqueue_busy (bus : Bus σ) (waiting : List (Delivery σ))
    (busy : bus.dispatch = .delivering waiting) (event : Event) :
    bus.enqueue event = bus.lined waiting [event] bus.state := by
  unfold enqueue lined
  rw [busy]
  rfl

theorem perform_publishAll (bus : Bus σ) (waiting : List (Delivery σ))
    (busy : bus.dispatch = .delivering waiting) (events : List Event) :
    bus.perform (.publishAll events) = bus.lined waiting events bus.state := by
  induction events generalizing bus waiting with
  | nil => exact (lined_nil bus waiting busy).symm
  | cons event rest ih =>
      change (bus.enqueue event).perform (.publishAll rest) = _
      rw [enqueue_busy bus waiting busy event, ih (bus.lined waiting [event] bus.state) _ rfl]
      exact lined_lined bus waiting [event] rest bus.state bus.state

theorem perform_unobtrusive (procedure : Procedure σ) (bus : Bus σ)
    (waiting : List (Delivery σ)) (busy : bus.dispatch = .delivering waiting)
    (unharmed : safe bus.state) (quiet : procedure.Unobtrusive allowed safe bus.state) :
    ∃ events state, bus.perform procedure = bus.lined waiting events state ∧
      (∀ event ∈ events, allowed event) ∧ safe state := by
  induction procedure generalizing bus waiting with
  | done =>
      exact ⟨[], bus.state, (lined_nil bus waiting busy).symm, List.forall_mem_nil _, unharmed⟩
  | panic =>
      exact ⟨[], bus.state, (lined_nil bus waiting busy).symm, List.forall_mem_nil _, unharmed⟩
  | publish event rest ih =>
      obtain ⟨events, state, performed, each, kept⟩ :=
        ih (bus.lined waiting [event] bus.state) _ rfl unharmed quiet.2
      refine ⟨event :: events, state, ?_, List.forall_mem_cons.mpr ⟨quiet.1, each⟩, kept⟩
      change (bus.enqueue event).perform rest = _
      rw [enqueue_busy bus waiting busy event, performed]
      exact lined_lined bus waiting [event] events bus.state state
  | subscribe kind observer next => exact quiet.elim
  | unsubscribe id next => exact quiet.elim
  | read next ih => exact ih bus.state bus waiting busy unharmed quiet
  | write written rest ih => exact ih { bus with state := written } waiting busy quiet.1 quiet.2

def begun (bus : Bus σ) : Bus σ := ⟨bus.registry, .delivering [], bus.state⟩

theorem publish_idle (bus : Bus σ) (idle : bus.dispatch = .idle) (remaining : Nat)
    (event : Event) :
    bus.publish (remaining + 1) event =
      Bus.drain remaining (bus.begun.deliver event (bus.registry.observers event.kind)) := by
  unfold publish
  rw [idle]
  unfold enqueue
  rw [idle]
  rfl

theorem deliver_append (bus : Bus σ) (event : Event) (first second : List (Registration σ)) :
    bus.deliver event (first ++ second) = (bus.deliver event first).deliver event second := by
  induction first generalizing bus with
  | nil => rfl
  | cons recipient others ih => exact ih _

theorem deliver_unobtrusive (bus : Bus σ) (allowed : Event → Prop) (event : Event)
    (recipients : List (Registration σ)) (waiting : List (Delivery σ))
    (busy : bus.dispatch = .delivering waiting) (unharmed : safe bus.state)
    (quiet : ∀ recipient ∈ recipients, ∀ state, safe state →
      (recipient.observer recipient.id event).Unobtrusive allowed safe state) :
    ∃ events state, bus.deliver event recipients = bus.lined waiting events state ∧
      (∀ event ∈ events, allowed event) ∧ safe state := by
  induction recipients generalizing bus waiting with
  | nil =>
      exact ⟨[], bus.state, (lined_nil bus waiting busy).symm, List.forall_mem_nil _, unharmed⟩
  | cons recipient others ih =>
      have headTail := List.forall_mem_cons.mp quiet
      obtain ⟨first, between, performed, firstAllowed, firstSafe⟩ :=
        perform_unobtrusive (recipient.observer recipient.id event) bus waiting busy unharmed
          (headTail.1 bus.state unharmed)
      obtain ⟨second, state, delivered, secondAllowed, kept⟩ :=
        ih (bus.lined waiting first between) _ rfl firstSafe headTail.2
      refine ⟨first ++ second, state, ?_, ?_, kept⟩
      · change (bus.perform (recipient.observer recipient.id event)).deliver event others = _
        rw [performed, delivered]
        exact lined_lined bus waiting first second between state
      · intro published member
        exact (List.mem_append.mp member).elim (firstAllowed published) (secondAllowed published)

end Bus

end CobolAnalysis
