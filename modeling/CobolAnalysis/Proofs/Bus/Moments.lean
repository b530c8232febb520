/-
What happens on a bus, one operation after the other.

At any moment a procedure may be under way, calls may be due for the event that is being
delivered, and further events may wait. Every operation leads from one moment to the
next and may leave a mark: a publication, the beginning of a call, or its end. Calls are
made in the order of the publications that they are due for, and nothing else is called.
An outermost publication is such a run, up to the moment at which the bus is at rest.
-/

import CobolAnalysis.Bus.Dispatch

namespace CobolAnalysis

variable {σ : Type}

/-! ### Calls and marks -/

structure Call (σ : Type) where
  recipient : Registration σ
  event : Event

def Call.procedure (call : Call σ) : Procedure σ :=
  call.recipient.observer call.recipient.id call.event

def Delivery.calls (delivery : Delivery σ) : List (Call σ) :=
  delivery.recipients.map fun recipient => ⟨recipient, delivery.event⟩

/-- An event, and who was registered for what when it was published. -/
structure Publication (σ : Type) where
  event : Event
  registry : Registry σ

def Publication.calls (publication : Publication σ) : List (Call σ) :=
  (publication.registry.observers publication.event.kind).map fun recipient =>
    ⟨recipient, publication.event⟩

inductive Mark (σ : Type) where
  | published (publication : Publication σ)
  | called (call : Call σ)
  | ended (panicked : Bool)

namespace Mark

def publication? : Mark σ → Option (Publication σ)
  | published publication => some publication
  | called _ => none
  | ended _ => none

def call? : Mark σ → Option (Call σ)
  | published _ => none
  | called call => some call
  | ended _ => none

end Mark

def publications (marks : List (Mark σ)) : List (Publication σ) :=
  marks.filterMap Mark.publication?

def calls (marks : List (Mark σ)) : List (Call σ) := marks.filterMap Mark.call?

theorem publications_append (first second : List (Mark σ)) :
    publications (first ++ second) = publications first ++ publications second :=
  List.filterMap_append

theorem calls_append (first second : List (Mark σ)) :
    calls (first ++ second) = calls first ++ calls second :=
  List.filterMap_append

/-! ### Moments -/

/-- A procedure that is under way, and the registration it belongs to. The program around the bus
has none. -/
structure Course (σ : Type) where
  runner : Option Nat
  ahead : Procedure σ

structure Moment (σ : Type) where
  bus : Bus σ
  course : Option (Course σ)
  due : List (Call σ)

namespace Moment

def between (bus : Bus σ) : Moment σ := ⟨bus, none, []⟩

def pending (moment : Moment σ) : List (Call σ) :=
  moment.due ++ moment.bus.dispatch.waiting.flatMap Delivery.calls

/-- One operation, and the mark it leaves. -/
inductive Next : Moment σ → List (Mark σ) → Moment σ → Prop where
  | publish {bus : Bus σ} {runner event rest due} :
      Next ⟨bus, some ⟨runner, .publish event rest⟩, due⟩ [.published ⟨event, bus.registry⟩]
        ⟨bus.enqueue event, some ⟨runner, rest⟩, due⟩
  | subscribe {bus : Bus σ} {runner kind observer next due} :
      Next ⟨bus, some ⟨runner, .subscribe kind observer next⟩, due⟩ []
        ⟨bus.subscribe kind observer, some ⟨runner, next bus.registry.nextId⟩, due⟩
  | unsubscribe {bus : Bus σ} {runner id next due} :
      Next ⟨bus, some ⟨runner, .unsubscribe id next⟩, due⟩ []
        ⟨bus.unsubscribe id, some ⟨runner, next (bus.registry.holds id)⟩, due⟩
  | read {bus : Bus σ} {runner next due} :
      Next ⟨bus, some ⟨runner, .read next⟩, due⟩ [] ⟨bus, some ⟨runner, next bus.state⟩, due⟩
  | write {bus : Bus σ} {runner state rest due} :
      Next ⟨bus, some ⟨runner, .write state rest⟩, due⟩ []
        ⟨{ bus with state := state }, some ⟨runner, rest⟩, due⟩
  | done {bus : Bus σ} {runner due} :
      Next ⟨bus, some ⟨runner, .done⟩, due⟩ [.ended false] ⟨bus, none, due⟩
  | panic {bus : Bus σ} {runner due} :
      Next ⟨bus, some ⟨runner, .panic⟩, due⟩ [.ended true] ⟨bus, none, due⟩
  | call {bus : Bus σ} {call due} :
      Next ⟨bus, none, call :: due⟩ [.called call]
        ⟨bus, some ⟨some call.recipient.id, call.procedure⟩, due⟩
  | take {bus : Bus σ} {next later} (waiting : bus.dispatch = .delivering (next :: later)) :
      Next ⟨bus, none, []⟩ [] ⟨{ bus with dispatch := .delivering later }, none, next.calls⟩
  | rest {bus : Bus σ} (spent : bus.dispatch = .delivering []) :
      Next ⟨bus, none, []⟩ [] ⟨{ bus with dispatch := .idle }, none, []⟩

/-- From the first moment on, with all marks. When no procedure is under way, the program around
the bus may begin one that `may` allows it. -/
inductive Run (may : Procedure σ → σ → Prop) (first : Moment σ) :
    List (Mark σ) → Moment σ → Prop where
  | start : Run may first [] first
  | next {marks more moment after} (run : Run may first marks moment)
      (step : moment.Next more after) : Run may first (marks ++ more) after
  | enter {marks bus procedure due} (run : Run may first marks ⟨bus, none, due⟩)
      (allowed : may procedure bus.state) :
      Run may first marks ⟨bus, some ⟨none, procedure⟩, due⟩

/-- The program around the bus waits until what is under way has come to its end. -/
def Undisturbed (_ : Procedure σ) (_ : σ) : Prop := False

variable {may : Procedure σ → σ → Prop} {first moment after : Moment σ} {marks more : List (Mark σ)}

theorem Run.append (run : Run may first marks moment) (further : Run may moment more after) :
    Run may first (marks ++ more) after := by
  induction further with
  | start =>
      rw [List.append_nil]
      exact run
  | next further step ih =>
      rw [← List.append_assoc]
      exact ih.next step
  | enter further allowed ih => exact ih.enter allowed

theorem Next.run (step : moment.Next marks after) : Run may moment marks after :=
  Run.start.next step

/-! ### Every call is due, and every due call is made or still to come -/

theorem Next.account (step : moment.Next marks after) :
    moment.pending ++ (publications marks).flatMap Publication.calls =
      calls marks ++ after.pending := by
  cases step with
  | @publish bus runner event rest due =>
      change (due ++ bus.dispatch.waiting.flatMap Delivery.calls) ++
          ((bus.delivery event).calls ++ []) =
        due ++ (bus.dispatch.waiting ++ [bus.delivery event]).flatMap Delivery.calls
      rw [List.flatMap_append, List.append_assoc, List.flatMap_singleton, List.append_nil]
  | subscribe => exact List.append_nil _
  | unsubscribe => exact List.append_nil _
  | read => exact List.append_nil _
  | write => exact List.append_nil _
  | done => exact List.append_nil _
  | panic => exact List.append_nil _
  | call => exact List.append_nil _
  | @take bus next later waiting =>
      change bus.dispatch.waiting.flatMap Delivery.calls ++ [] =
        next.calls ++ later.flatMap Delivery.calls
      rw [waiting, List.append_nil]
      rfl
  | @rest bus spent =>
      change bus.dispatch.waiting.flatMap Delivery.calls ++ [] = []
      rw [spent]
      rfl

/-- At every moment, the calls that were made and those to come are, in this order, the ones that
were to come at first and then those of each publication. -/
theorem Run.account (run : Run may first marks moment) :
    first.pending ++ (publications marks).flatMap Publication.calls =
      calls marks ++ moment.pending := by
  induction run with
  | start => exact List.append_nil _
  | next run step ih =>
      rw [publications_append, calls_append, List.flatMap_append, ← List.append_assoc, ih,
        List.append_assoc, step.account, List.append_assoc]
  | enter run allowed ih => exact ih

/-! ### Procedures and deliveries as runs -/

theorem run_perform (may : Procedure σ → σ → Prop) (bus : Bus σ) (runner : Option Nat)
    (procedure : Procedure σ) (due : List (Call σ)) :
    ∃ marks, Run may ⟨bus, some ⟨runner, procedure⟩, due⟩ marks
      ⟨bus.perform procedure, none, due⟩ := by
  induction procedure generalizing bus with
  | done => exact ⟨_, Next.done.run⟩
  | panic => exact ⟨_, Next.panic.run⟩
  | publish event rest ih =>
      obtain ⟨marks, run⟩ := ih (bus.enqueue event)
      exact ⟨_, Next.publish.run.append run⟩
  | subscribe kind observer next ihObserver ih =>
      obtain ⟨marks, run⟩ := ih bus.registry.nextId (bus.subscribe kind observer)
      exact ⟨_, Next.subscribe.run.append run⟩
  | unsubscribe id next ih =>
      obtain ⟨marks, run⟩ := ih (bus.registry.holds id) (bus.unsubscribe id)
      exact ⟨_, Next.unsubscribe.run.append run⟩
  | read next ih =>
      obtain ⟨marks, run⟩ := ih bus.state bus
      exact ⟨_, Next.read.run.append run⟩
  | write state rest ih =>
      obtain ⟨marks, run⟩ := ih { bus with state := state }
      exact ⟨_, Next.write.run.append run⟩

theorem run_deliver (may : Procedure σ → σ → Prop) (bus : Bus σ) (event : Event)
    (recipients : List (Registration σ)) :
    ∃ marks, Run may ⟨bus, none, (Delivery.mk event recipients).calls⟩ marks
      (between (bus.deliver event recipients)) := by
  induction recipients generalizing bus with
  | nil => exact ⟨[], .start⟩
  | cons recipient others ih =>
      obtain ⟨performed, runs⟩ := run_perform may bus (some recipient.id)
        (recipient.observer recipient.id event) (Delivery.mk event others).calls
      obtain ⟨delivered, goes⟩ := ih (bus.perform (recipient.observer recipient.id event))
      exact ⟨_, (Next.call.run.append runs).append goes⟩

theorem run_drain (may : Procedure σ → σ → Prop) {limit : Nat} {bus drained : Bus σ}
    (ends : bus.drain limit = some drained) :
    drained.dispatch = .idle ∧ ∃ marks, Run may (between bus) marks (between drained) := by
  induction limit generalizing bus with
  | zero =>
      unfold Bus.drain at ends
      split at ends
      next idle =>
        cases ends
        exact ⟨idle, [], .start⟩
      next spent =>
        cases ends
        exact ⟨rfl, _, (Next.rest spent).run⟩
      next => cases ends
  | succ limit ih =>
      unfold Bus.drain at ends
      split at ends
      next idle =>
        cases ends
        exact ⟨idle, [], .start⟩
      next spent =>
        cases ends
        exact ⟨rfl, _, (Next.rest spent).run⟩
      next next later waiting =>
        obtain ⟨idle, further, drains⟩ := ih ends
        obtain ⟨delivered, delivers⟩ := run_deliver may
          { bus with dispatch := .delivering later } next.event next.recipients
        exact ⟨idle, _, ((Next.take waiting).run.append delivers).append drains⟩

/-! ### Runs as procedures and deliveries -/

def answered (bus : Bus σ) (calls : List (Call σ)) : Bus σ :=
  calls.foldl (fun bus call => bus.perform call.procedure) bus

theorem answered_calls (bus : Bus σ) (event : Event) (recipients : List (Registration σ)) :
    answered bus (Delivery.mk event recipients).calls = bus.deliver event recipients := by
  induction recipients generalizing bus with
  | nil => rfl
  | cons recipient others ih => exact ih _

def settled (moment : Moment σ) : Bus σ :=
  match moment.course with
  | none => answered moment.bus moment.due
  | some course => answered (moment.bus.perform course.ahead) moment.due

theorem Next.drain (step : moment.Next marks after) {limit : Nat} {drained : Bus σ}
    (ends : after.settled.drain limit = some drained) :
    ∃ enough, moment.settled.drain enough = some drained := by
  -- Only taking the next event counts against the limit, and every other step is settled already.
  cases step with
  | @take bus next later waiting =>
      refine ⟨limit + 1, ?_⟩
      change (answered { bus with dispatch := .delivering later } next.calls).drain limit = _
        at ends
      rw [show next.calls = (Delivery.mk next.event next.recipients).calls from rfl,
        answered_calls] at ends
      change bus.drain (limit + 1) = _
      unfold Bus.drain
      rw [waiting]
      exact ends
  | @rest bus spent =>
      refine ⟨limit, ?_⟩
      change Bus.drain limit { bus with dispatch := .idle } = _ at ends
      change bus.drain limit = _
      unfold Bus.drain at ends ⊢
      rw [spent]
      exact ends
  | _ => exact ⟨limit, ends⟩

theorem Run.drain (run : Run Undisturbed first marks moment) {limit : Nat} {drained : Bus σ}
    (ends : moment.settled.drain limit = some drained) :
    ∃ enough, first.settled.drain enough = some drained := by
  induction run generalizing limit with
  | start => exact ⟨limit, ends⟩
  | next run step ih =>
      obtain ⟨more, before⟩ := step.drain ends
      exact ih before
  | enter run allowed ih => exact allowed.elim

end Moment

namespace Bus

theorem drain_mono {limit more : Nat} (within : limit ≤ more) {bus drained : Bus σ}
    (ends : bus.drain limit = some drained) : bus.drain more = some drained := by
  induction limit generalizing bus more with
  | zero =>
      unfold Bus.drain at ends ⊢
      split at ends
      next => exact ends
      next => exact ends
      next => cases ends
  | succ limit ih =>
      obtain ⟨further, rfl⟩ : ∃ further, more = further + 1 :=
        Nat.exists_eq_add_one_of_ne_zero (by omega)
      unfold Bus.drain at ends ⊢
      split at ends
      next => exact ends
      next => exact ends
      next => exact ih (by omega) ends

theorem publish_mono {limit more : Nat} (within : limit ≤ more) {bus after : Bus σ} {event : Event}
    (returned : bus.publish limit event = some after) : bus.publish more event = some after := by
  unfold publish at returned ⊢
  split at returned
  next => exact drain_mono within returned
  next => exact returned

theorem publish_unique {bus after other : Bus σ} {limit more : Nat} {event : Event}
    (returned : bus.publish limit event = some after)
    (again : bus.publish more event = some other) : other = after := by
  have first := publish_mono (Nat.le_max_left limit more) returned
  have second := publish_mono (Nat.le_max_right limit more) again
  exact Option.some.inj (second.symm.trans first)

/-- The outermost publication ends with the bus that a run to rest ends with. -/
theorem publish_returns_iff {bus after : Bus σ} (outermost : bus.dispatch = .idle)
    (event : Event) :
    (∃ limit, bus.publish limit event = some after) ↔
      after.dispatch = .idle ∧ ∃ marks, Moment.Run Moment.Undisturbed
        (.between (bus.enqueue event)) marks (.between after) := by
  have publishes : ∀ limit, bus.publish limit event = (bus.enqueue event).drain limit := by
    intro limit
    unfold publish
    rw [outermost]
  constructor
  · rintro ⟨limit, returned⟩
    exact Moment.run_drain _ ((publishes limit).symm.trans returned)
  · rintro ⟨idle, marks, run⟩
    have ended : (Moment.between after).settled.drain 0 = some after := by
      change after.drain 0 = some after
      unfold drain
      rw [idle]
    obtain ⟨limit, drained⟩ := run.drain ended
    exact ⟨limit, (publishes limit).trans drained⟩

end Bus

end CobolAnalysis
