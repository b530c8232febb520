/-
Buses on which every request returns.

A request returns once all that was published in consequence of it is delivered. How many
deliveries that takes depends on what happened before, and nothing bounds it for all
requests alike. Requests return wherever results are the only answers to a request, and no
result is answered, whatever the results are.
-/

import CobolAnalysis.Proofs.Bus.Delivery
import CobolAnalysis.Proofs.Bus.Moments
import CobolAnalysis.Resolution.Exchange

namespace CobolAnalysis

variable {σ : Type}

/-! ### Requests one after the other -/

namespace Task

theorem start_mono {limit more : Nat} (within : limit ≤ more) {name : LogicalName}
    {bus : Bus (Board σ)} {started : Task × Bus (Board σ)}
    (starts : Task.start limit name bus = some started) :
    Task.start more name bus = some started := by
  obtain ⟨asked, returned, same⟩ := Option.map_eq_some_iff.mp starts
  exact Option.map_eq_some_iff.mpr ⟨asked, Bus.publish_mono within returned, same⟩

theorem start_unique {limit more : Nat} {name : LogicalName} {bus : Bus (Board σ)}
    {started other : Task × Bus (Board σ)} (starts : Task.start limit name bus = some started)
    (again : Task.start more name bus = some other) : other = started := by
  have first := start_mono (Nat.le_max_left limit more) starts
  have second := start_mono (Nat.le_max_right limit more) again
  exact Option.some.inj (second.symm.trans first)

end Task

namespace Bus

/-- What becomes of the bus while copybooks are asked for, and the answers are waited for in the
order in which they were asked for; with the tasks that are under way. -/
inductive Asks (first : Bus (Board σ)) : List Task → Bus (Board σ) → Prop where
  | nothing : Asks first [] first
  | start {tasks bus limit name task asked} (earlier : Asks first tasks bus)
      (started : Task.start limit name bus = some (task, asked)) :
      Asks first (tasks ++ [task]) asked
  | await {task tasks bus} (earlier : Asks first (task :: tasks) bus) :
      Asks first tasks (task.close bus)

/-- Whatever was asked for before, the next request returns. -/
def Returns (first : Bus (Board σ)) : Prop :=
  ∀ tasks bus, first.Asks tasks bus → ∀ name, ∃ limit, (Task.start limit name bus).isSome

/-! ### Buses on which no answer is answered -/

/-- Requests are answered with results, any number of them, and results with nothing. -/
structure Calm (bus : Bus σ) : Prop where
  idle : bus.dispatch = .idle
  requests : ∀ registration ∈ bus.registry.observers .scanRequest, ∀ name state,
    (registration.observer registration.id (.scan name)).Unobtrusive
      (fun event => event.kind = .fetchResult) (fun _ => True) state
  results : ∀ registration ∈ bus.registry.observers .fetchResult, ∀ result state,
    (registration.observer registration.id (.fetch result)).Unobtrusive
      (fun _ => False) (fun _ => True) state

theorem Calm.rests {bus : Bus σ} (calm : bus.Calm) (state : σ) :
    Bus.Calm ⟨bus.registry, .idle, state⟩ :=
  ⟨rfl, calm.requests, calm.results⟩

/-- A delivery for each of the waiting events is enough if no recipient publishes anything. -/
theorem drain_silent {waiting : List (Delivery σ)} {bus : Bus σ}
    (busy : bus.dispatch = .delivering waiting)
    (silent : ∀ delivery ∈ waiting, ∀ recipient ∈ delivery.recipients, ∀ state,
      (recipient.observer recipient.id delivery.event).Unobtrusive (fun _ => False)
        (fun _ => True) state) :
    ∃ state, bus.drain waiting.length = some ⟨bus.registry, .idle, state⟩ := by
  induction waiting generalizing bus with
  | nil =>
      refine ⟨bus.state, ?_⟩
      unfold drain
      rw [busy]
  | cons next later ih =>
      obtain ⟨headSilent, laterSilent⟩ := List.forall_mem_cons.mp silent
      obtain ⟨events, state, delivered, forbidden, _⟩ :=
        deliver_unobtrusive { bus with dispatch := .delivering later } (fun _ => False) next.event
          next.recipients later rfl trivial fun recipient member state _ =>
            headSilent recipient member state
      have nothing : events = [] := List.eq_nil_iff_forall_not_mem.mpr forbidden
      have busyLater : (Bus.mk bus.registry (.delivering later) state).dispatch =
          .delivering later := rfl
      obtain ⟨last, drained⟩ := ih busyLater laterSilent
      refine ⟨last, ?_⟩
      rw [List.length_cons]
      unfold drain
      rw [busy]
      simp only
      rw [delivered, nothing, lined, List.map_nil, List.append_nil]
      exact drained

theorem Calm.publish {bus : Bus σ} (calm : bus.Calm) (name : LogicalName) :
    ∃ limit state, bus.publish limit (.scan name) = some ⟨bus.registry, .idle, state⟩ := by
  obtain ⟨events, between, delivered, answers, _⟩ :=
    deliver_unobtrusive bus.begun (fun event => event.kind = .fetchResult) (.scan name)
      (bus.registry.observers .scanRequest) [] rfl trivial fun recipient member state _ =>
        calm.requests recipient member name state
  -- The request lines up results and nothing else, and no result lines up anything.
  have busy : (bus.begun.lined [] events between).dispatch =
      .delivering (events.map bus.delivery) := rfl
  obtain ⟨last, drained⟩ := drain_silent busy (by
    intro delivery member recipient receives state
    obtain ⟨event, published, rfl⟩ := List.mem_map.mp member
    cases event with
    | scan other => cases answers _ published
    | fetch result => exact calm.results recipient receives result state)
  refine ⟨(events.map bus.delivery).length + 1, last, ?_⟩
  rw [publish_idle bus calm.idle]
  exact (congrArg (drain _) delivered).trans drained

theorem Calm.listening {bus : Bus (Board σ)} (calm : bus.Calm) (name : LogicalName) :
    (bus.subscribe .fetchResult (Task.listener name)).Calm := by
  refine ⟨calm.idle, ?_, ?_⟩
  · unfold subscribe
    rw [Registry.observers_add]
    exact List.forall_mem_append.mpr ⟨calm.requests, List.forall_mem_nil _⟩
  · unfold subscribe
    rw [Registry.observers_add]
    refine List.forall_mem_append.mpr ⟨calm.results, List.forall_mem_singleton.mpr ?_⟩
    intro result state
    change Procedure.Unobtrusive _ _
      (if result.name = name then Procedure.modify _ .done else .done) state
    split
    · exact ⟨trivial, trivial⟩
    · trivial

theorem Calm.close {bus : Bus (Board σ)} (calm : bus.Calm) (task : Task) :
    (task.close bus).Calm := by
  refine ⟨calm.idle, fun registration member => calm.requests registration ?_,
    fun registration member => calm.results registration ?_⟩
  · exact (List.mem_filter.mp (Registry.observers_remove .. ▸ member)).1
  · exact (List.mem_filter.mp (Registry.observers_remove .. ▸ member)).1

theorem Calm.start {bus : Bus (Board σ)} (calm : bus.Calm) (name : LogicalName) :
    ∃ limit started, Task.start limit name bus = some started ∧ started.2.Calm := by
  have listening := calm.listening name
  obtain ⟨limit, state, returned⟩ := listening.publish name
  exact ⟨limit, _, congrArg (Option.map _) returned, listening.rests state⟩

theorem Calm.asks {first bus : Bus (Board σ)} (calm : first.Calm) {tasks : List Task}
    (asks : first.Asks tasks bus) : bus.Calm := by
  induction asks with
  | nothing => exact calm
  | start earlier started ih =>
      obtain ⟨limit, other, again, calmly⟩ := ih.start _
      rw [Task.start_unique started again] at calmly
      exact calmly
  | await earlier ih => exact ih.close _

theorem Calm.returns {bus : Bus (Board σ)} (calm : bus.Calm) : bus.Returns := by
  intro tasks reached asks name
  obtain ⟨limit, started, starts, _⟩ := (calm.asks asks).start name
  exact ⟨limit, Option.isSome_iff_exists.mpr ⟨started, starts⟩⟩

end Bus

end CobolAnalysis
