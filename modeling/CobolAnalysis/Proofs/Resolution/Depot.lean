/-
Requests on a bus with one provider that holds copybooks in memory.

Other observers of requests may listen before and after the provider. As long as
they only answer for other names, and for none that the provider keeps silent
about, every task gets exactly the provider's answer for its name, however many
tasks are under way.
-/

import CobolAnalysis.Proofs.Resolution.FirstAnswer
import CobolAnalysis.Provider.Memory
import CobolAnalysis.Resolution.Exchange
import Mathlib.Data.List.Nodup

namespace CobolAnalysis

namespace Provider.Memory

/-- The answer to a request, if one is given. -/
def answer? (memory : Memory) (name : LogicalName) : Option FetchResult :=
  if memory.isSilent name then none else some (memory.fetch name)

/-- An answer for another name, and for one on which the provider is not silent. -/
def Foreign (memory : Memory) (name : LogicalName) : Event → Prop
  | .scan _ => False
  | .fetch result => result.name ≠ name ∧ memory.isSilent result.name = false

def counting (memory : Memory) (requests : Nat) : Memory :=
  { memory with requests := memory.requests + requests }

theorem name_fetch (memory : Memory) (name : LogicalName) : (memory.fetch name).name = name := by
  unfold fetch
  split
  · rfl
  · rfl

theorem answers_eq (memory : Memory) (name : LogicalName) :
    memory.answers name = (memory.answer? name).toList.map Event.fetch := by
  unfold answers answer?
  split
  · rfl
  · rfl

theorem find?_answer (memory : Memory) (name : LogicalName) :
    ((memory.answer? name).toList.find? fun result => result.name = name) =
      memory.answer? name := by
  unfold answer?
  split
  · rfl
  · rw [Option.toList_some, List.find?_singleton, if_pos (decide_eq_true (memory.name_fetch name))]

theorem answer?_or (memory : Memory) (name : LogicalName) (results : List FetchResult)
    (audible : ∀ result ∈ results, memory.isSilent result.name = false) :
    (memory.answer? name).or (results.find? fun result => result.name = name) =
      memory.answer? name := by
  unfold answer?
  split
  · rename_i silent
    rw [Option.none_or]
    refine List.find?_eq_none.mpr fun result present own => ?_
    have heard := audible result present
    rw [of_decide_eq_true own, silent] at heard
    exact absurd heard (by decide)
  · exact Option.some_or

theorem heard_of_answer (memory : Memory) (name : LogicalName) (result : FetchResult)
    (member : result ∈ (memory.answer? name).toList) :
    result.name = name ∧ memory.isSilent result.name = false := by
  unfold answer? at member
  split at member
  · exact absurd member List.not_mem_nil
  · rename_i audible
    rw [Option.toList_some, List.mem_singleton] at member
    rw [member, memory.name_fetch name]
    exact ⟨rfl, Bool.eq_false_iff.mpr audible⟩

theorem results_of_foreign (memory : Memory) (name : LogicalName) (events : List Event)
    (foreign : ∀ event ∈ events, memory.Foreign name event) :
    ∃ results : List FetchResult, events = results.map Event.fetch ∧
      ∀ result ∈ results, result.name ≠ name ∧ memory.isSilent result.name = false := by
  induction events with
  | nil => exact ⟨[], rfl, List.forall_mem_nil _⟩
  | cons event rest ih =>
      have headTail := List.forall_mem_cons.mp foreign
      obtain ⟨results, shape, each⟩ := ih headTail.2
      cases event with
      | scan other => exact headTail.1.elim
      | fetch result =>
          refine ⟨result :: results, ?_, List.forall_mem_cons.mpr ⟨headTail.1, each⟩⟩
          rw [shape, List.map_cons]

end Provider.Memory

open Provider (Memory)

/-- Where the observers on a bus keep the provider's memory. The rest of their state stays within
`steady`. -/
structure Depot (σ : Type) where
  memory : Part σ Memory
  steady : σ → Prop
  counted : ∀ state, steady state → steady (memory.modify Memory.countRequest state)

namespace Depot

variable {σ : Type} (depot : Depot σ)

def provider : Observer (Board σ) := (Memory.respond.within depot.memory).within Board.clientPart

def Holds (stock : Memory) (state : σ) : Prop :=
  depot.memory.get state = stock ∧ depot.steady state

/-- An observer of requests that may publish foreign answers and may panic, but leaves
registrations and the provider alone. -/
def Bystander (stock : Memory) (observer : Observer σ) : Prop :=
  ∀ id name count state, depot.Holds (stock.counting count) state →
    (observer id (.scan name)).Unobtrusive (stock.Foreign name)
      (depot.Holds (stock.counting count)) state

/-- The bus is at rest, one provider with `stock` is attached, all other observers of requests
are bystanders, and the tasks that are under way have the provider's answers. -/
structure Attached (stock : Memory) (tasks : List Task) (bus : Bus (Board σ)) : Prop where
  idle : bus.dispatch = .idle
  attended : ∃ before id after,
    bus.registry.observers .scanRequest = before ++ ⟨id, .scanRequest, depot.provider⟩ :: after ∧
      ∀ registration ∈ before ++ after, ∃ observer : Observer σ,
        registration.observer = observer.within Board.clientPart ∧ depot.Bystander stock observer
  listeners : bus.registry.observers .fetchResult = tasks.map Task.registration
  unused : ∀ id, bus.registry.nextId ≤ id → bus.state.answers.get? id = none
  answered : ∀ task ∈ tasks, bus.state.answers.get? task.id = stock.answer? task.name
  holds : depot.Holds stock bus.state.client

variable {depot} {stock : Memory} {tasks : List Task} {bus : Bus (Board σ)}

theorem Bystander.counting {observer : Observer σ} (bystander : depot.Bystander stock observer)
    (requests : Nat) : depot.Bystander (stock.counting requests) observer := by
  intro id name count state holds
  have total : (stock.counting requests).counting count = stock.counting (requests + count) := by
    unfold Memory.counting
    rw [Nat.add_assoc]
  rw [total] at holds ⊢
  exact bystander id name (requests + count) state holds

/-! ### One request -/

def Guarded (depot : Depot σ) (answers : Table Nat FetchResult) (stock : Memory)
    (board : Board σ) : Prop :=
  board.answers = answers ∧ depot.Holds stock board.client

theorem Bystander.unobtrusive {observer : Observer σ} (bystander : depot.Bystander stock observer)
    (answers : Table Nat FetchResult) (count id : Nat) (name : LogicalName) (board : Board σ)
    (guarded : depot.Guarded answers (stock.counting count) board) :
    (observer.within Board.clientPart id (.scan name)).Unobtrusive (stock.Foreign name)
      (depot.Guarded answers (stock.counting count)) board := by
  refine Procedure.Unobtrusive.within Board.clientPart ?_ (observer id (.scan name)) board guarded
    (bystander id name count board.client guarded.2)
  intro client outer clientHolds outerGuarded
  exact ⟨outerGuarded.1, clientHolds⟩

theorem deliver_bystanders (stock : Memory) (name : LogicalName) (count : Nat)
    (answers : Table Nat FetchResult) (recipients : List (Registration (Board σ)))
    (bystanders : ∀ registration ∈ recipients, ∃ observer : Observer σ,
      registration.observer = observer.within Board.clientPart ∧ depot.Bystander stock observer)
    (bus : Bus (Board σ)) (waiting : List (Delivery (Board σ)))
    (busy : bus.dispatch = .delivering waiting)
    (guarded : depot.Guarded answers (stock.counting count) bus.state) :
    ∃ results : List FetchResult, ∃ state,
      bus.deliver (.scan name) recipients = bus.lined waiting (results.map Event.fetch) state ∧
        (∀ result ∈ results, result.name ≠ name ∧ stock.isSilent result.name = false) ∧
        depot.Guarded answers (stock.counting count) state := by
  obtain ⟨events, state, delivered, foreign, kept⟩ :=
    bus.deliver_unobtrusive (stock.Foreign name) (.scan name) recipients waiting busy
      guarded (by
        intro registration member board boardGuarded
        obtain ⟨observer, same, bystander⟩ := bystanders registration member
        rw [same]
        exact bystander.unobtrusive answers count registration.id name board boardGuarded)
  obtain ⟨results, shape, each⟩ := stock.results_of_foreign name events foreign
  exact ⟨results, state, shape ▸ delivered, each, kept⟩

theorem perform_provider (bus : Bus (Board σ)) (waiting : List (Delivery (Board σ)))
    (busy : bus.dispatch = .delivering waiting) (answers : Table Nat FetchResult)
    (guarded : depot.Guarded answers stock bus.state) (id : Nat) (name : LogicalName) :
    ∃ state, bus.perform (depot.provider id (.scan name)) =
        bus.lined waiting (stock.answers name) state ∧
      depot.Guarded answers (stock.counting 1) state := by
  let client := depot.memory.modify Memory.countRequest bus.state.client
  have counts : depot.memory.get client = stock.counting 1 := by
    change depot.memory.get (depot.memory.set _ _) = _
    rw [depot.memory.get_set, guarded.2.1]
    rfl
  refine ⟨{ bus.state with client := client }, ?_, guarded.1, counts, ?_⟩
  · have course : bus.perform (depot.provider id (.scan name)) =
        Bus.perform { bus with state := { bus.state with client := client } }
          (((Procedure.publishAll ((depot.memory.get client).answers name)).within
            depot.memory).within Board.clientPart) := rfl
    rw [course, Procedure.within_publishAll, Procedure.within_publishAll,
      Bus.perform_publishAll { bus with state := { bus.state with client := client } } waiting busy,
      counts]
    rfl
  · exact depot.counted bus.state.client guarded.2.2

/-- Of all results lined up while a request is delivered, the first for its name is the
provider's. -/
theorem deliver_request (stock : Memory) (name : LogicalName) (answers : Table Nat FetchResult)
    (before after : List (Registration (Board σ))) (id : Nat)
    (bystanders : ∀ registration ∈ before ++ after, ∃ observer : Observer σ,
      registration.observer = observer.within Board.clientPart ∧ depot.Bystander stock observer)
    (bus : Bus (Board σ)) (busy : bus.dispatch = .delivering [])
    (guarded : depot.Guarded answers stock bus.state) :
    ∃ results : List FetchResult, ∃ state,
      bus.deliver (.scan name) (before ++ ⟨id, .scanRequest, depot.provider⟩ :: after) =
          bus.lined [] (results.map Event.fetch) state ∧
        depot.Guarded answers (stock.counting 1) state ∧
        (results.find? fun result => result.name = name) = stock.answer? name ∧
        ∀ result ∈ results, stock.isSilent result.name = false := by
  obtain ⟨early, first, deliveredEarly, earlyForeign, firstGuarded⟩ :=
    deliver_bystanders stock name 0 answers before
      (fun registration member => bystanders registration (List.mem_append_left after member))
      bus [] busy guarded
  obtain ⟨second, performed, secondGuarded⟩ :=
    perform_provider (bus.lined [] (early.map Event.fetch) first) _ rfl answers firstGuarded id name
  have answered := performed.trans
    (bus.lined_lined [] (early.map Event.fetch) (stock.answers name) first second)
  obtain ⟨late, third, deliveredLate, lateForeign, thirdGuarded⟩ :=
    deliver_bystanders stock name 1 answers after
      (fun registration member => bystanders registration (List.mem_append_right before member))
      (bus.lined [] (early.map Event.fetch ++ stock.answers name) second) _ rfl secondGuarded
  have total : (early ++ (stock.answer? name).toList ++ late).map Event.fetch =
      (early.map Event.fetch ++ stock.answers name) ++ late.map Event.fetch := by
    rw [List.map_append, List.map_append, stock.answers_eq name]
  refine ⟨early ++ (stock.answer? name).toList ++ late, third, ?_, thirdGuarded, ?_, ?_⟩
  · rw [Bus.deliver_append, deliveredEarly, total]
    refine (congrArg (fun between => Bus.deliver between (.scan name) after) answered).trans ?_
    exact deliveredLate.trans (bus.lined_lined [] _ _ second third)
  · have silentBefore : (early.find? fun result => result.name = name) = none :=
      List.find?_eq_none.mpr fun result member own =>
        (earlyForeign result member).1 (of_decide_eq_true own)
    have silentAfter : (late.find? fun result => result.name = name) = none :=
      List.find?_eq_none.mpr fun result member own =>
        (lateForeign result member).1 (of_decide_eq_true own)
    rw [List.find?_append, List.find?_append, silentBefore, silentAfter, Option.none_or,
      Option.or_none, stock.find?_answer name]
  · intro result member
    rcases List.mem_append.mp member with earlier | inLate
    · rcases List.mem_append.mp earlier with inEarly | own
      · exact (earlyForeign result inEarly).2
      · exact (stock.heard_of_answer name result own).2
    · exact (lateForeign result inLate).2

/-- A bus on which a further task listens, before that task has asked. -/
structure Listening (depot : Depot σ) (stock : Memory) (tasks : List Task) (task : Task)
    (bus : Bus (Board σ)) : Prop where
  attended : ∃ before id after,
    bus.registry.observers .scanRequest = before ++ ⟨id, .scanRequest, depot.provider⟩ :: after ∧
      ∀ registration ∈ before ++ after, ∃ observer : Observer σ,
        registration.observer = observer.within Board.clientPart ∧ depot.Bystander stock observer
  listeners : bus.registry.observers .fetchResult = (tasks ++ [task]).map Task.registration
  unused : ∀ id, bus.registry.nextId ≤ id → bus.state.answers.get? id = none
  answered : ∀ held ∈ tasks, bus.state.answers.get? held.id = stock.answer? held.name
  unanswered : bus.state.answers.get? task.id = none

theorem Attached.listening (attached : depot.Attached stock tasks bus) (name : LogicalName) :
    depot.Listening stock tasks ⟨name, bus.registry.nextId⟩
      (bus.subscribe .fetchResult (Task.listener name)) := by
  obtain ⟨before, id, after, observers, bystanders⟩ := attached.attended
  refine ⟨⟨before, id, after, ?_, bystanders⟩, ?_, ?_, attached.answered, ?_⟩
  · change (bus.registry.add .fetchResult (Task.listener name)).observers .scanRequest = _
    rw [Registry.observers_add, if_neg (by decide), List.append_nil, observers]
  · change (bus.registry.add .fetchResult (Task.listener name)).observers .fetchResult = _
    rw [Registry.observers_add, if_pos rfl, attached.listeners, List.map_append]
    rfl
  · intro other beyond
    exact attached.unused other (Nat.le_of_succ_le beyond)
  · exact attached.unused bus.registry.nextId (Nat.le_refl _)

theorem Listening.heard {task : Task} (listening : depot.Listening stock tasks task bus)
    (results : List FetchResult)
    (own : (results.find? fun result => result.name = task.name) = stock.answer? task.name)
    (audible : ∀ result ∈ results, stock.isSilent result.name = false) (board : Board σ)
    (guarded : depot.Guarded bus.state.answers (stock.counting 1) board) :
    depot.Attached (stock.counting 1) (tasks ++ [task])
      ⟨bus.registry, .idle, board.hearAll (tasks ++ [task]) results⟩ := by
  have distinct : ((tasks ++ [task]).map Task.id).Nodup := by
    have ids := bus.registry.ids_nodup .fetchResult
    rw [listening.listeners, List.map_map] at ids
    exact ids
  refine ⟨rfl, ?_, listening.listeners, ?_, ?_, ?_⟩
  · obtain ⟨before, id, after, observers, bystanders⟩ := listening.attended
    refine ⟨before, id, after, observers, fun registration member => ?_⟩
    obtain ⟨observer, same, bystander⟩ := bystanders registration member
    exact ⟨observer, same, bystander.counting 1⟩
  · intro other beyond
    have foreign : other ∉ (tasks ++ [task]).map Task.id := by
      intro present
      obtain ⟨held, member, rfl⟩ := List.mem_map.mp present
      have issued := bus.registry.id_lt_nextId .fetchResult held.registration
        (listening.listeners ▸ List.mem_map_of_mem member)
      exact absurd beyond (Nat.not_le_of_lt issued)
    change (board.hearAll (tasks ++ [task]) results).answers.get? other = none
    rw [Board.answers_hearAll_other board (tasks ++ [task]) results other foreign, guarded.1]
    exact listening.unused other beyond
  · intro held member
    change (board.hearAll (tasks ++ [task]) results).answers.get? held.id = stock.answer? held.name
    rw [Board.answers_hearAll board (tasks ++ [task]) results distinct held member, guarded.1]
    -- Older tasks keep the answer they have; the new one takes the first for its name.
    rcases List.mem_append.mp member with old | new
    · rw [listening.answered held old]
      exact stock.answer?_or held.name results audible
    · rw [List.mem_singleton.mp new, listening.unanswered, Option.none_or]
      exact own
  · change depot.Holds (stock.counting 1) (board.hearAll (tasks ++ [task]) results).client
    rw [Board.client_hearAll]
    exact guarded.2

/-- A task that is started has the provider's answer as soon as its request was published, given
that enough events may be delivered. -/
theorem Attached.start (attached : depot.Attached stock tasks bus) (name : LogicalName) :
    ∃ least asked, (∀ limit, least ≤ limit →
        Task.start limit name bus = some (⟨name, bus.registry.nextId⟩, asked)) ∧
      depot.Attached (stock.counting 1) (tasks ++ [⟨name, bus.registry.nextId⟩]) asked := by
  let subscribed := bus.subscribe .fetchResult (Task.listener name)
  have listening : depot.Listening stock tasks ⟨name, bus.registry.nextId⟩ subscribed :=
    attached.listening name
  obtain ⟨before, id, after, observers, bystanders⟩ := listening.attended
  obtain ⟨results, board, delivered, guarded, own, audible⟩ :=
    deliver_request stock name bus.state.answers before after id bystanders
      subscribed.begun rfl ⟨rfl, attached.holds⟩
  refine ⟨results.length + 1, _, ?_, listening.heard results own audible board guarded⟩
  intro limit enough
  obtain ⟨remaining, rfl⟩ : ∃ remaining, limit = remaining + 1 :=
    Nat.exists_eq_add_one_of_ne_zero (Nat.ne_of_gt (Nat.lt_of_lt_of_le (Nat.succ_pos _) enough))
  have drained := Bus.drain_results (subscribed.begun.lined [] (results.map Event.fetch) board)
    results (tasks ++ [⟨name, bus.registry.nextId⟩]) remaining (Nat.le_of_succ_le_succ enough) (by
      unfold Bus.lined
      rw [List.nil_append, List.map_map, ← listening.listeners]
      rfl)
  have published : subscribed.publish (remaining + 1) (.scan name) =
      Bus.drain remaining (subscribed.begun.deliver (.scan name)
        (subscribed.registry.observers .scanRequest)) :=
    Bus.publish_idle subscribed attached.idle remaining (.scan name)
  change (subscribed.publish (remaining + 1) (.scan name)).map _ = _
  rw [published, observers, delivered, drained]
  rfl

/-- Waiting for the first of the tasks gives the provider's answer and ends that task alone. -/
theorem Attached.await {task : Task} (attached : depot.Attached stock (task :: tasks) bus)
    (wasCancelled : Bool) :
    task.await wasCancelled bus =
        (.ofAnswer (stock.answer? task.name) wasCancelled, task.close bus) ∧
      depot.Attached stock tasks (task.close bus) := by
  have distinct : ((task :: tasks).map Task.id).Nodup := by
    have ids := bus.registry.ids_nodup .fetchResult
    rw [attached.listeners, List.map_map] at ids
    exact ids
  have foreign : ∀ other ∈ tasks, other.id ≠ task.id := by
    intro other member same
    exact (List.nodup_cons.mp distinct).1 (same ▸ List.mem_map_of_mem member)
  have present : task.registration ∈ bus.registry.observers .fetchResult := by
    rw [attached.listeners]
    exact List.mem_map_of_mem List.mem_cons_self
  constructor
  · unfold Task.await Task.answer?
    rw [attached.answered task List.mem_cons_self]
  · refine ⟨attached.idle, ?_, ?_, ?_, ?_, attached.holds⟩
    · obtain ⟨before, id, after, observers, bystanders⟩ := attached.attended
      refine ⟨before, id, after, ?_, bystanders⟩
      change (bus.registry.remove task.id).observers .scanRequest = _
      rw [Registry.observers_remove, ← observers]
      refine List.filter_eq_self.mpr fun registration member => bne_iff_ne.mpr ?_
      exact bus.registry.id_ne_of_kind_ne (by decide) registration task.registration member present
    · change (bus.registry.remove task.id).observers .fetchResult = _
      rw [Registry.observers_remove, attached.listeners, List.map_cons,
        List.filter_cons_of_neg (by simp [Task.registration])]
      refine List.filter_eq_self.mpr fun registration member => bne_iff_ne.mpr ?_
      obtain ⟨other, otherMember, rfl⟩ := List.mem_map.mp member
      exact foreign other otherMember
    · intro id beyond
      change (bus.state.answers.erase task.id).get? id = none
      rw [Table.get?_erase]
      split
      · rfl
      · exact attached.unused id beyond
    · intro other member
      change (bus.state.answers.erase task.id).get? other.id = _
      rw [Table.get?_erase, if_neg (foreign other member)]
      exact attached.answered other (List.mem_cons_of_mem task member)

end Depot

end CobolAnalysis
