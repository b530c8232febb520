/-
Delivery in order, to each observer exactly once.

Calls never overlap: one ends, in a panic or not, before the next begins. So the marks of
a publication that returns fall into rounds, one for each event, the nested ones included,
in the order in which the events were published. A round calls those who were registered
when its event was published, whatever was registered or given up since.
-/

import CobolAnalysis.Proofs.Bus.Moments
import Mathlib.Data.List.Pairwise

namespace CobolAnalysis

variable {σ : Type}

/-! ### Calls from their beginning to their end -/

/-- A call that has ended, and what was published in the course of it. -/
structure Callback (σ : Type) where
  call : Call σ
  publications : List (Publication σ)
  panicked : Bool

def Callback.marks (callback : Callback σ) : List (Mark σ) :=
  .called callback.call :: callback.publications.map Mark.published ++ [.ended callback.panicked]

theorem publications_published (published : List (Publication σ)) :
    publications (published.map Mark.published) = published := by
  induction published with
  | nil => rfl
  | cons publication rest ih => exact congrArg (publication :: ·) ih

theorem calls_published (published : List (Publication σ)) :
    calls (published.map Mark.published) = [] := by
  induction published with
  | nil => rfl
  | cons publication rest ih => exact ih

theorem Callback.publications_marks (callback : Callback σ) :
    CobolAnalysis.publications callback.marks = callback.publications := by
  change CobolAnalysis.publications (callback.publications.map Mark.published ++ [.ended _]) = _
  rw [publications_append, publications_published]
  exact List.append_nil _

theorem Callback.calls_marks (callback : Callback σ) : calls callback.marks = [callback.call] := by
  change callback.call :: calls (callback.publications.map Mark.published ++ [.ended _]) = _
  rw [calls_append, calls_published]
  rfl

theorem publications_callbacks (callbacks : List (Callback σ)) :
    publications (callbacks.flatMap Callback.marks) = callbacks.flatMap Callback.publications := by
  induction callbacks with
  | nil => rfl
  | cons callback rest ih =>
      rw [List.flatMap_cons, List.flatMap_cons, publications_append, ih,
        callback.publications_marks]

theorem calls_callbacks (callbacks : List (Callback σ)) :
    calls (callbacks.flatMap Callback.marks) = callbacks.map Callback.call := by
  induction callbacks with
  | nil => rfl
  | cons callback rest ih =>
      rw [List.flatMap_cons, calls_append, ih, callback.calls_marks]
      rfl

namespace Moment

/-- All calls have ended, but for the one that is under way. -/
def Bracketed (marks : List (Mark σ)) : Option (Course σ) → Prop
  | none => ∃ callbacks : List (Callback σ), marks = callbacks.flatMap Callback.marks
  | some _ => ∃ (callbacks : List (Callback σ)) (call : Call σ) (published : List (Publication σ)),
      marks = callbacks.flatMap Callback.marks ++ .called call :: published.map Mark.published

theorem Bracketed.ended {marks : List (Mark σ)} {course : Course σ} (panicked : Bool)
    (bracketed : Bracketed marks (some course)) :
    Bracketed (marks ++ [.ended panicked]) none := by
  obtain ⟨callbacks, call, published, rfl⟩ := bracketed
  refine ⟨callbacks ++ [⟨call, published, panicked⟩], ?_⟩
  rw [List.flatMap_append, List.flatMap_singleton, List.append_assoc]
  rfl

theorem Next.bracketed {moment after : Moment σ} {marks more : List (Mark σ)}
    (bracketed : Bracketed marks moment.course) (step : moment.Next more after) :
    Bracketed (marks ++ more) after.course := by
  cases step with
  | @publish bus runner event rest due =>
      obtain ⟨callbacks, call, published, rfl⟩ := bracketed
      refine ⟨callbacks, call, published ++ [⟨event, bus.registry⟩], ?_⟩
      rw [List.append_assoc, List.cons_append, List.map_append]
      rfl
  | done => exact bracketed.ended false
  | panic => exact bracketed.ended true
  | call =>
      obtain ⟨callbacks, rfl⟩ := bracketed
      exact ⟨callbacks, _, [], rfl⟩
  | _ =>
      rw [List.append_nil]
      exact bracketed

theorem Run.bracketed {bus : Bus σ} {moment : Moment σ} {marks : List (Mark σ)}
    (run : Run Undisturbed (between bus) marks moment) : Bracketed marks moment.course := by
  induction run with
  | start => exact ⟨[], rfl⟩
  | next run step ih => exact step.bracketed ih
  | enter run allowed ih => exact allowed.elim

end Moment

/-! ### Rounds -/

/-- A publication, and the calls that are made for it. -/
structure Round (σ : Type) where
  publication : Publication σ
  callbacks : List (Callback σ)

namespace Round

def marks (round : Round σ) : List (Mark σ) := round.callbacks.flatMap Callback.marks

def nested (round : Round σ) : List (Publication σ) :=
  round.callbacks.flatMap Callback.publications

/-- Those who were registered for the event when it was published are called, in the order in
which they were registered, each once, and no one else. -/
structure Complete (round : Round σ) : Prop where
  calls : round.callbacks.map Callback.call = round.publication.calls
  ordered : (round.callbacks.map fun callback => callback.call.recipient.id).Pairwise (· < ·)

/-- Calls in the order of their publications fall into rounds. -/
theorem divide {callbacks : List (Callback σ)} {published : List (Publication σ)}
    (due : callbacks.map Callback.call = published.flatMap Publication.calls) :
    ∃ rounds : List (Round σ), rounds.map publication = published ∧
      rounds.flatMap Round.callbacks = callbacks ∧
      ∀ round ∈ rounds, round.callbacks.map Callback.call = round.publication.calls := by
  induction published generalizing callbacks with
  | nil =>
      rw [List.flatMap_nil, List.map_eq_nil_iff] at due
      exact ⟨[], rfl, due.symm, List.forall_mem_nil _⟩
  | cons first later ih =>
      rw [List.flatMap_cons] at due
      obtain ⟨own, others, rfl, ownDue, othersDue⟩ := List.map_eq_append_iff.mp due
      obtain ⟨rounds, rfl, rfl, each⟩ := ih othersDue
      exact ⟨⟨first, own⟩ :: rounds, rfl, rfl, List.forall_mem_cons.mpr ⟨ownDue, each⟩⟩

end Round

theorem Publication.calls_ordered (publication : Publication σ) :
    (publication.calls.map fun call => call.recipient.id).Pairwise (· < ·) := by
  unfold Publication.calls Registry.observers
  rw [List.map_map, List.pairwise_map]
  exact publication.registry.ordered.filter _

namespace Bus

theorem perform_panic (bus : Bus σ) (first second : Procedure σ) :
    bus.perform ((first.andThen .panic).andThen second) = bus.perform first := by
  induction first generalizing bus with
  | done => rfl
  | panic => rfl
  | publish event rest ih => exact ih _
  | subscribe kind observer next ihObserver ih => exact ih _ _
  | unsubscribe id next ih => exact ih _ _
  | read next ih => exact ih _ _
  | write state rest ih => exact ih _

/-- An outermost publication that returns leaves the bus at rest. Its course consists of one round
for its own event and one for each event that is published on the way, in the order in which
they are published. -/
theorem delivers_in_order {limit : Nat} {bus after : Bus σ} (outermost : bus.dispatch = .idle)
    (event : Event) (returned : bus.publish limit event = some after) :
    after.dispatch = .idle ∧
      (∃ marks, Moment.Run Moment.Undisturbed (.between (bus.enqueue event)) marks
        (.between after)) ∧
      (∀ marks other, other.dispatch = .idle →
        Moment.Run Moment.Undisturbed (.between (bus.enqueue event)) marks (.between other) →
          other = after ∧
            ∃ rounds : List (Round σ), marks = rounds.flatMap Round.marks ∧
              rounds.map Round.publication =
                ⟨event, bus.registry⟩ :: rounds.flatMap Round.nested ∧
              ∀ round ∈ rounds, round.Complete) ∧
      ∀ (within : Bus σ) (first second : Procedure σ),
        within.perform ((first.andThen .panic).andThen second) = within.perform first := by
  obtain ⟨idle, marks, run⟩ := (publish_returns_iff outermost event).mp ⟨limit, returned⟩
  refine ⟨idle, ⟨marks, run⟩, ?_, perform_panic⟩
  intro marks other otherIdle run
  obtain ⟨more, again⟩ := (publish_returns_iff outermost event).mpr ⟨otherIdle, marks, run⟩
  refine ⟨publish_unique returned again, ?_⟩
  obtain ⟨callbacks, rfl⟩ := run.bracketed
  -- Nothing is to come at the end, so the calls are those due for all publications.
  have account := run.account
  have first : (Moment.between (bus.enqueue event)).pending =
      (Publication.mk event bus.registry).calls := by
    change (bus.dispatch.waiting ++ [bus.delivery event]).flatMap Delivery.calls = _
    rw [outermost]
    exact List.append_nil _
  have last : (Moment.between other).pending = [] := by
    change other.dispatch.waiting.flatMap Delivery.calls = []
    rw [otherIdle]
    rfl
  rw [first, last, List.append_nil, publications_callbacks, calls_callbacks,
    ← List.flatMap_cons] at account
  obtain ⟨rounds, published, rfl, each⟩ := Round.divide account.symm
  refine ⟨rounds, List.flatMap_assoc, ?_, ?_⟩
  · rw [published, List.flatMap_assoc]
    rfl
  · intro round member
    refine ⟨each round member, ?_⟩
    have ordered := round.publication.calls_ordered
    rwa [← each round member, List.map_map] at ordered

end Bus

section Sample

/-- The first observer publishes an answer, gives up the second, registers another for answers, and
panics. The second is called all the same, and the other one is not. -/
def Bus.crowded : Bus (List String) :=
  let note (label : String) (rest : Procedure (List String)) : Procedure (List String) :=
    .modify (fun noted => noted ++ [label]) rest
  let first : Observer (List String) := fun _ event =>
    note "first" (.publish (.fetch (.missing event.name)) (.unsubscribe 1 fun _ =>
      .subscribe .fetchResult (fun _ _ => note "other" .done) fun _ => .panic))
  (((Bus.ofState []).subscribe .scanRequest first).subscribe .scanRequest
    fun _ _ => note "second" .done).subscribe .fetchResult fun _ _ => note "third" .done

theorem Bus.sample_delivers_in_order :
    ∃ after, Bus.crowded.publish 2 (.scan ⟨['A']⟩) = some after ∧
      after.state = ["first", "second", "third"] ∧ after.dispatch = .idle ∧
      ∃ rounds : List (Round (List String)), rounds.map Round.publication =
          ⟨.scan ⟨['A']⟩, Bus.crowded.registry⟩ :: rounds.flatMap Round.nested ∧
        ∀ round ∈ rounds, round.Complete := by
  have evaluated : (Bus.crowded.publish 2 (.scan ⟨['A']⟩)).map Bus.state =
      some ["first", "second", "third"] := by
    decide +kernel
  obtain ⟨after, returned, noted⟩ := Option.map_eq_some_iff.mp evaluated
  obtain ⟨idle, ⟨marks, run⟩, divided, _⟩ := Bus.delivers_in_order rfl _ returned
  obtain ⟨_, rounds, _, published, complete⟩ := divided marks after idle run
  exact ⟨after, returned, noted, idle, rounds, published, complete⟩

end Sample

end CobolAnalysis
