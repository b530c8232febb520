/-
What a task has when it is waited for.

From the moment at which it listens, a task hears all answers that are published, in
their order, each when it is delivered. It keeps the first for its own name. Whatever
else happens on the bus before, meanwhile and after, waiting for the task gives this
answer, or else tells whether the wait was cancelled or came to its deadline.
-/

import CobolAnalysis.Proofs.Bus.Discipline
import CobolAnalysis.Proofs.Resolution.FirstAnswer
import Mathlib.Data.List.Nodup

namespace CobolAnalysis

variable {σ : Type}

/-! ### Looking for the answer -/

theorem Resolution.ofAnswer_of_found {result : FetchResult} (found : result.found = true)
    {content : List Char} (present : result.content = some content) (wasCancelled : Bool) :
    Resolution.ofAnswer (some result) wasCancelled = .resolved content result.uri := by
  unfold ofAnswer ofResult
  simp only [present, found, if_true]

theorem Resolution.ofAnswer_of_negative {result : FetchResult}
    (negative : result.found = false ∨ result.content = none) (wasCancelled : Bool) :
    Resolution.ofAnswer (some result) wasCancelled = .notFound := by
  obtain ⟨name, content, found, uri⟩ := result
  rcases negative with unfound | empty
  · cases content with
    | none => rfl
    | some text => exact if_neg (Bool.eq_false_iff.mp unfound)
  · cases empty
    rfl

/-! ### What a listener hears -/

def Event.result? : Event → Option FetchResult
  | scan _ => none
  | fetch result => some result

def Call.answerTo (id : Nat) (call : Call σ) : Option FetchResult :=
  if call.recipient.id = id then call.event.result? else none

def answersTo (id : Nat) (calls : List (Call σ)) : List FetchResult :=
  calls.filterMap (Call.answerTo id)

def answersPublished (marks : List (Mark σ)) : List FetchResult :=
  (publications marks).filterMap fun publication => publication.event.result?

theorem answersTo_append (id : Nat) (first second : List (Call σ)) :
    answersTo id (first ++ second) = answersTo id first ++ answersTo id second :=
  List.filterMap_append

theorem answersTo_eq_nil {id : Nat} {calls : List (Call σ)}
    (others : ∀ call ∈ calls, call.recipient.id ≠ id) : answersTo id calls = [] :=
  List.filterMap_eq_nil_iff.mpr fun call member => if_neg (others call member)

theorem answersTo_call (task : Task) (event : Event) :
    answersTo task.id [(Call.mk task.registration event : Call (Board σ))] =
      event.result?.toList := by
  have own : Call.answerTo task.id (Call.mk task.registration event : Call (Board σ)) =
      event.result? := if_pos rfl
  unfold answersTo
  rw [List.filterMap_cons, own]
  cases event.result? with
  | none => rfl
  | some result => rfl

namespace Task

/-- Only the listener of the registration touches its account, and nobody else ends it. -/
def privacy (id : Nat) : Rule (Board σ) where
  allows := fun runner state written =>
    runner ≠ some id → written.answers.get? id = state.answers.get? id
  free := fun other => other ≠ id

theorem listener_heeds (name : LogicalName) (id other : Nat) (event : Event) (state : Board σ) :
    (listener name other event).Heeds (privacy id) (some other) state := by
  unfold listener
  cases event with
  | scan asked => trivial
  | fetch result =>
      by_cases own : result.name = name
      · simp only [if_pos own]
        refine ⟨?_, trivial⟩
        intro foreign
        refine (Table.get?_alter state.answers other id _).trans (if_neg ?_)
        exact fun same => foreign (congrArg some same.symm)
      · simp only [if_neg own]
        trivial

theorem heeds_within_client (id : Nat) {procedure : Procedure σ} {runner : Option Nat}
    {state : Board σ}
    (spares : procedure.Heeds ⟨fun _ _ _ => True, fun other => other ≠ id⟩ runner state.client) :
    (procedure.within Board.clientPart).Heeds (privacy id) runner state :=
  Procedure.Heeds.within Board.clientPart (fun _ _ _ _ _ => rfl) (fun _ => Iff.rfl) spares

end Task

namespace Moment

variable {first moment after : Moment (Board σ)} {marks since : List (Mark (Board σ))}

/-! ### Before the task listens -/

theorem Run.account_unused {id : Nat} (client : σ)
    (run : Run (Lawful (Task.privacy id)) (between (.ofState (.ofClient client))) marks moment)
    (unused : moment.bus.registry.nextId ≤ id) : moment.bus.state.answers.get? id = none := by
  induction run with
  | start => rfl
  | @next marks more moment after run step ih =>
      have below := Nat.le_trans step.nextId_le unused
      have heeds := run.heeds (Heeds.fresh (Task.privacy id) (Board.ofClient client))
        fun other _ given => Nat.ne_of_lt (Nat.lt_of_lt_of_le given below)
      rcases step.allowed heeds with same | ⟨course, underWay, kept⟩
      · rw [same]
        exact ih below
      · rw [kept ?_]
        · exact ih below
        · intro own
          have given := (run.issued (Issued.fresh _)).course course underWay id own
          exact absurd (Nat.lt_of_lt_of_le given below) (Nat.lt_irrefl id)
  | enter run lawful ih => exact ih unused

/-! ### While it listens -/

def heardBy (id : Nat) (moment : Moment σ) : Bus σ :=
  match moment.course with
  | none => moment.bus
  | some course =>
      if course.runner = some id then moment.bus.perform course.ahead else moment.bus

/-- The task listens, and its account holds the first of the answers that it heard for its name. -/
structure Attends (task : Task) (heard : List FetchResult) (moment : Moment (Board σ)) : Prop where
  registered : task.registration ∈ moment.bus.registry.registrations
  due : ∀ call ∈ moment.pending, call.recipient.id = task.id → call.recipient = task.registration
  account : (moment.heardBy task.id).state.answers.get? task.id =
    heard.find? fun result => result.name = task.name

theorem account_call {task : Task} {heard : List FetchResult} {bus : Bus (Board σ)}
    (account : bus.state.answers.get? task.id = heard.find? fun result => result.name = task.name)
    (event : Event) :
    (bus.perform (Task.listener task.name task.id event)).state.answers.get? task.id =
      (heard ++ event.result?.toList).find? fun result => result.name = task.name := by
  cases event with
  | scan asked =>
      change bus.state.answers.get? task.id = (heard ++ []).find? _
      rw [List.append_nil]
      exact account
  | fetch result =>
      change _ = (heard ++ [result]).find? _
      rw [bus.perform_listener, Board.answers_offer, List.find?_append, List.find?_singleton,
        account]
      by_cases named : result.name = task.name
      · rw [if_pos named, if_pos (decide_eq_true named)]
      · rw [if_neg named, if_neg fun holds => named (of_decide_eq_true holds)]

theorem Next.account_kept {id : Nat} (step : moment.Next marks after)
    (heeds : moment.Heeds (Task.privacy id)) (silent : calls marks = []) :
    (after.heardBy id).state.answers.get? id = (moment.heardBy id).state.answers.get? id := by
  have course := heeds.course
  cases step with
  | @write bus runner state rest due =>
      by_cases own : runner = some id
      · simp only [heardBy, own, if_true]
        rfl
      · simp only [heardBy, own, if_false]
        exact (course _ rfl).1 own
  | @publish bus runner | @subscribe bus runner | @unsubscribe bus runner | @read bus runner =>
      by_cases own : runner = some id
      · simp only [heardBy, own, if_true]
        rfl
      · simp only [heardBy, own, if_false, Bus.enqueue, Bus.subscribe, Bus.unsubscribe]
  | done | panic =>
      simp only [heardBy]
      split
      · rfl
      · rfl
  | call => cases silent
  | take => rfl
  | rest => rfl

theorem Next.attends {task : Task} {heard : List FetchResult} (step : moment.Next marks after)
    (heeds : moment.Heeds (Task.privacy task.id)) (attends : moment.Attends task heard) :
    after.Attends task (heard ++ answersTo task.id (calls marks)) := by
  have due : ∀ call ∈ after.pending, call.recipient.id = task.id →
      call.recipient = task.registration := by
    intro call later own
    rcases step.mem_pending later with old | registered
    · exact attends.due call old own
    · exact moment.bus.registry.eq_of_id_eq registered attends.registered own
  have registered : task.registration ∈ after.bus.registry.registrations := by
    have course := heeds.course
    cases step with
    | unsubscribe =>
        refine List.mem_filter.mpr ⟨attends.registered, bne_iff_ne.mpr fun own => ?_⟩
        exact (course _ rfl).1 own.symm
    | subscribe => exact List.mem_append_left _ attends.registered
    | _ => exact attends.registered
  refine ⟨registered, due, ?_⟩
  -- An answer is entered in the account when its call begins; whatever else the step is, it leaves
  -- the account as it is.
  by_cases silent : calls marks = []
  · rw [step.account_kept heeds silent, silent]
    exact attends.account.trans (congrArg (List.find? _) (List.append_nil heard).symm)
  · cases step with
    | @call bus call later =>
        change (if some call.recipient.id = some task.id then bus.perform call.procedure
          else bus).state.answers.get? task.id = (heard ++ answersTo task.id [call]).find? _
        by_cases own : call.recipient.id = task.id
        · have same : call.recipient = task.registration :=
            attends.due call (List.mem_append_left _ List.mem_cons_self) own
          obtain ⟨recipient, event⟩ := call
          subst same
          refine Eq.trans ?_ (congrArg (fun answers => (heard ++ answers).find? _)
            (answersTo_call task event).symm)
          exact (if_pos rfl).symm ▸ account_call attends.account event
        · rw [if_neg fun same => own (Option.some.inj same),
            answersTo_eq_nil (List.forall_mem_singleton.mpr own), List.append_nil]
          exact attends.account
    | _ => exact absurd rfl silent

theorem Run.attends {task : Task} (run : Run (Lawful (Task.privacy task.id)) first since moment)
    (heeds : first.Heeds (Task.privacy task.id))
    (issued : task.id < first.bus.registry.nextId) (attends : first.Attends task []) :
    moment.Attends task (answersTo task.id (calls since)) := by
  induction run with
  | start => exact attends
  | next run step ih =>
      rw [calls_append, answersTo_append]
      refine step.attends (run.heeds heeds ?_) ih
      exact fun other least _ => Nat.ne_of_gt (Nat.lt_of_lt_of_le issued least)
  | enter run lawful ih => exact ⟨ih.registered, ih.due, ih.account⟩

/-! ### What was published since -/

theorem Run.registered_at_publication {task : Task}
    (run : Run (Lawful (Task.privacy task.id)) first since moment)
    (heeds : first.Heeds (Task.privacy task.id))
    (issued : task.id < first.bus.registry.nextId) (attends : first.Attends task [])
    {publication : Publication (Board σ)} (published : publication ∈ publications since) :
    task.registration ∈ publication.registry.registrations := by
  induction run with
  | start => cases published
  | next run step ih =>
      rw [publications_append] at published
      rcases List.mem_append.mp published with earlier | last
      · exact ih earlier
      · rw [step.registry_of_published last]
        exact (run.attends heeds issued attends).registered
  | enter run lawful ih => exact ih published

end Moment

theorem Publication.answersTo_calls {task : Task} {publication : Publication (Board σ)}
    (registered : task.registration ∈ publication.registry.registrations) :
    answersTo task.id publication.calls = publication.event.result?.toList := by
  obtain ⟨event, registry⟩ := publication
  cases event with
  | scan asked =>
      refine List.filterMap_eq_nil_iff.mpr fun call member => ?_
      obtain ⟨recipient, _, rfl⟩ := List.mem_map.mp member
      exact ite_self none
  | fetch result =>
      have listening : task.registration ∈ registry.observers .fetchResult :=
        List.mem_filter.mpr ⟨registered, beq_self_eq_true _⟩
      obtain ⟨before, after, split⟩ := List.append_of_mem listening
      have distinct := registry.ids_nodup .fetchResult
      rw [split, List.map_append, List.map_cons, List.nodup_middle, List.nodup_cons,
        ← List.map_append] at distinct
      have others :
          ∀ call ∈ (before ++ after).map fun recipient => Call.mk recipient (.fetch result),
            call.recipient.id ≠ task.id := by
        intro call member own
        obtain ⟨recipient, there, rfl⟩ := List.mem_map.mp member
        exact distinct.1 (List.mem_map.mpr ⟨recipient, there, own⟩)
      rw [List.map_append, List.forall_mem_append] at others
      change answersTo task.id ((registry.observers .fetchResult).map _) = _
      rw [split, List.map_append, List.map_cons, ← List.singleton_append, answersTo_append,
        answersTo_append, answersTo_eq_nil others.1, answersTo_eq_nil others.2, answersTo_call,
        List.append_nil, List.nil_append]

namespace Moment

variable {first moment : Moment (Board σ)} {since : List (Mark (Board σ))}

/-- The answers that were published while the task listened are those that it heard and those that
it is still to hear, in this order. -/
theorem Run.answers_heard {task : Task}
    (run : Run (Lawful (Task.privacy task.id)) first since moment)
    (heeds : first.Heeds (Task.privacy task.id))
    (issued : task.id < first.bus.registry.nextId) (attends : first.Attends task [])
    (others : ∀ call ∈ first.pending, call.recipient.id ≠ task.id) :
    answersPublished since =
      answersTo task.id (calls since) ++ answersTo task.id moment.pending := by
  rw [← answersTo_append, ← run.account, answersTo_append, answersTo_eq_nil others, List.nil_append]
  unfold answersTo answersPublished
  rw [List.filterMap_flatMap, List.filterMap_eq_flatMap_toList]
  refine (List.flatMap_congr ?_).symm
  intro publication published
  exact Publication.answersTo_calls
    (run.registered_at_publication heeds issued attends published)

end Moment

namespace Task

def starting (name : LogicalName) (next : Nat → Procedure (Board σ)) : Procedure (Board σ) :=
  .subscribe .fetchResult (listener name) fun id => .publish (.scan name) (next id)

def listening (name : LogicalName) (next : Nat → Procedure (Board σ)) (bus : Bus (Board σ))
    (runner : Option Nat) (due : List (Call (Board σ))) : Moment (Board σ) :=
  ⟨bus.subscribe .fetchResult (listener name),
    some ⟨runner, .publish (.scan name) (next bus.registry.nextId)⟩, due⟩

/-- Starting a task is a run: it lasts until the bus is at rest, or until the request is lined up
with what is being delivered. -/
theorem start_run (may : Procedure (Board σ) → Board σ → Prop) {limit : Nat} {name : LogicalName}
    {bus asked : Bus (Board σ)} {task : Task}
    (started : Task.start limit name bus = some (task, asked)) (runner : Option Nat) :
    ∃ marks, Moment.Run may (listening name (fun _ => .done) bus runner []) marks
      (.between asked) := by
  obtain ⟨_, published, same⟩ := Option.map_eq_some_iff.mp started
  cases same
  have asks : Moment.Run may (listening name (fun _ => .done) bus runner []) _
      (.between ((bus.subscribe .fetchResult (listener name)).enqueue (.scan name))) :=
    Moment.Next.publish.run.append Moment.Next.done.run
  unfold Bus.publish at published
  split at published
  next =>
    obtain ⟨_, marks, drains⟩ := Moment.run_drain may published
    exact ⟨_, asks.append drains⟩
  next =>
    cases published
    exact ⟨_, asks⟩

/-- Waiting gives the first answer for the task's own name among those that it heard, whatever is
found out about the token and the deadline. Without one, the wait is cancelled or comes to its
deadline. -/
structure GivesFirst (task : Task) (heard : List FetchResult) (bus : Bus (Board σ)) : Prop where
  resolved : ∀ result content, (heard.find? fun result => result.name = task.name) = some result →
    result.found = true → result.content = some content →
      ∀ wasCancelled, (task.await wasCancelled bus).1 = .resolved content result.uri
  notFound : ∀ result, (heard.find? fun result => result.name = task.name) = some result →
    result.found = false ∨ result.content = none →
      ∀ wasCancelled, (task.await wasCancelled bus).1 = .notFound
  unanswered : (heard.find? fun result => result.name = task.name) = none →
    (task.await true bus).1 = .cancelled ∧ (task.await false bus).1 = .timedOut
  /-- The first look finds the answer, however late it is. -/
  atOnce : (heard.find? fun result => result.name = task.name).isSome →
    ∀ glance later wasCancelled, glance.answer = task.answer? bus →
      Resolution.ofGlances (glance :: later) = some (task.await wasCancelled bus).1
  /-- As long as no answer arrives, only a look that finds the wait cancelled or at its deadline
  ends it. -/
  inVain : (heard.find? fun result => result.name = task.name) = none →
    ∀ glances, (∀ glance ∈ glances, glance.answer = task.answer? bus) →
      Resolution.ofGlances glances =
        (glances.find? Glance.final).map fun last => (task.await last.cancelled bus).1

theorem givesFirst {task : Task} {heard : List FetchResult} {bus : Bus (Board σ)}
    (account : task.answer? bus = heard.find? fun result => result.name = task.name) :
    task.GivesFirst heard bus := by
  constructor
  · intro result content first found present wasCancelled
    unfold await
    rw [account, first]
    exact Resolution.ofAnswer_of_found found present wasCancelled
  · intro result first negative wasCancelled
    unfold await
    rw [account, first]
    exact Resolution.ofAnswer_of_negative negative wasCancelled
  · intro silent
    unfold await
    rw [account, silent]
    exact ⟨rfl, rfl⟩
  · intro answered glance later wasCancelled sees
    obtain ⟨result, first⟩ := Option.isSome_iff_exists.mp answered
    unfold Resolution.ofGlances await
    rw [sees, account, first]
    rfl
  · intro silent glances see
    rw [ofGlances_eq_await see, account, silent]
    rfl

end Task

namespace Moment

/-- What the history before a task leaves it with when it begins to listen. -/
theorem Run.listening {client : σ} {task : Task} {next : Nat → Procedure (Board σ)}
    {before : List (Mark (Board σ))} {bus : Bus (Board σ)} {runner : Option Nat}
    {due : List (Call (Board σ))} (numbered : task.id = bus.registry.nextId)
    (earlier : Run (Lawful (Task.privacy task.id)) (between (.ofState (.ofClient client))) before
      ⟨bus, some ⟨runner, Task.starting task.name next⟩, due⟩)
    (continues : (next bus.registry.nextId).Heeds (Task.privacy task.id) runner bus.state) :
    (Task.listening task.name next bus runner due).Heeds (Task.privacy task.id) ∧
      (Task.listening task.name next bus runner due).Attends task [] ∧
      ∀ call ∈ (Task.listening task.name next bus runner due).pending,
        call.recipient.id ≠ task.id := by
  have heeds := earlier.heeds (Heeds.fresh (Task.privacy task.id) (Board.ofClient client))
    fun other _ given => Nat.ne_of_lt (Nat.lt_of_lt_of_eq given numbered.symm)
  have issued := earlier.issued (Issued.fresh (Board.ofClient client))
  have unused := earlier.account_unused client (Nat.le_of_eq numbered.symm)
  have registration : bus.registry.candidate .fetchResult (Task.listener task.name) =
      task.registration := by
    unfold Task.registration Registry.candidate
    rw [numbered]
  have others : ∀ call ∈ (Task.listening task.name next bus runner due).pending,
      call.recipient.id ≠ task.id := by
    intro call pending own
    have given : call.recipient.id < bus.registry.nextId := issued.pending call pending
    exact Nat.ne_of_lt given (own.trans numbered)
  refine ⟨⟨?_, heeds.pending, ?_⟩, ⟨?_, ?_, ?_⟩, others⟩
  · intro registered member
    rcases List.mem_append.mp member with old | new
    · exact heeds.registered registered old
    · rw [List.mem_singleton.mp new]
      exact Task.listener_heeds task.name task.id bus.registry.nextId
  · rintro _ ⟨⟩
    exact continues
  · exact List.mem_append_right _ (List.mem_singleton.mpr registration.symm)
  · exact fun call pending own => absurd own (others call pending)
  · have foreign : runner ≠ some task.id := by
      intro own
      exact Nat.ne_of_lt (issued.course _ rfl task.id own) numbered
    unfold heardBy Task.listening
    simp only [foreign, if_false]
    exact unused

/-- From a fresh bus on, through whatever happens before, while and after a task is started, waiting
for the task gives the first answer for its name among those that were published while it
listened and have been delivered. Nobody else touches the task's account or registration, and the
one who waits is not the task's own listener. -/
theorem gives_first_own_answer {client : σ} {task : Task} {next : Nat → Procedure (Board σ)}
    {before since : List (Mark (Board σ))} {bus : Bus (Board σ)} {runner : Option Nat}
    {due : List (Call (Board σ))} {now : Moment (Board σ)}
    (numbered : task.id = bus.registry.nextId)
    (earlier : Run (Lawful (Task.privacy task.id)) (between (.ofState (.ofClient client))) before
      ⟨bus, some ⟨runner, Task.starting task.name next⟩, due⟩)
    (continues : (next bus.registry.nextId).Heeds (Task.privacy task.id) runner bus.state)
    (later : Run (Lawful (Task.privacy task.id)) (Task.listening task.name next bus runner due)
      since now)
    (elsewhere : ∀ course ∈ now.course, course.runner ≠ some task.id) :
    (∀ limit started asked, Task.start limit task.name bus = some (started, asked) →
      started = task ∧
        (∃ marks, Run Undisturbed
          (Task.listening task.name (fun _ => .done) bus runner []) marks (between asked)) ∧
        ∀ waiting, bus.dispatch = .delivering waiting →
          asked = (bus.subscribe .fetchResult (Task.listener task.name)).enqueue
            (.scan task.name)) ∧
      answersPublished since =
        answersTo task.id (calls since) ++ answersTo task.id now.pending ∧
      task.GivesFirst (answersTo task.id (calls since)) now.bus := by
  obtain ⟨heeds, attends, others⟩ := earlier.listening numbered continues
  have issued : task.id < (Task.listening task.name next bus runner due).bus.registry.nextId :=
    Nat.lt_succ_of_le (Nat.le_of_eq numbered)
  refine ⟨?_, later.answers_heard heeds issued attends others, Task.givesFirst ?_⟩
  · intro limit started asked starts
    obtain ⟨_, published, same⟩ := Option.map_eq_some_iff.mp starts
    cases same
    refine ⟨?_, Task.start_run Undisturbed starts runner, ?_⟩
    · rw [← numbered]
    · intro waiting busy
      have listening : (bus.subscribe .fetchResult (Task.listener task.name)).dispatch =
          .delivering waiting := busy
      unfold Bus.publish at published
      rw [listening] at published
      exact (Option.some.inj published).symm
  · have account := (later.attends heeds issued attends).account
    obtain ⟨there, course, pending⟩ := now
    cases course with
    | none => exact account
    | some course =>
        unfold heardBy at account
        simp only [elsewhere course rfl, if_false] at account
        exact account

section Sample

def chatter : Observer Unit := fun _ event =>
  match event with
  | .fetch _ => .done
  | .scan name => .publishAll [.fetch (.located ⟨['B']⟩ ['b']), .fetch (.located name ['a']),
      .fetch (.missing name)]

def chattering : Bus (Board Unit) :=
  ((Bus.ofState (.ofClient ())).subscribe .scanRequest (chatter.within Board.clientPart)).enqueue
    (.fetch (.missing ⟨['A']⟩))

theorem sample_gives_first_own_answer :
    ∃ (since : List (Mark (Board Unit))) (now : Bus (Board Unit)),
      answersPublished since = answersTo 1 (calls since) ++ answersTo 1 (between now).pending ∧
        Task.GivesFirst ⟨⟨['A']⟩, 1⟩ (answersTo 1 (calls since)) now ∧
        (Task.await ⟨⟨['A']⟩, 1⟩ true now).1 = .resolved ['a'] none := by
  have chatterLawful (id : Nat) (event : Event) (heard : Board Unit) :
      (chatter.within Board.clientPart id event).Heeds (Task.privacy 1) (some id) heard := by
    refine Task.heeds_within_client 1 ?_
    cases event with
    | fetch result => trivial
    | scan name => exact Procedure.Heeds.publishAll _ _ _
  let early : Procedure (Board Unit) := .subscribe .scanRequest (chatter.within Board.clientPart)
    fun _ => .publish (.fetch (.missing ⟨['A']⟩)) (Task.starting ⟨['A']⟩ fun _ => .done)
  have lawful : Lawful (Task.privacy 1) early (.ofClient ()) :=
    ⟨fun id _ event heard => chatterLawful id event heard, fun _ _ =>
      ⟨fun other _ event heard => Task.listener_heeds _ 1 other event heard, fun _ _ => trivial⟩⟩
  have earlier : Run (Lawful (Task.privacy 1)) (between (.ofState (.ofClient ()))) _
      ⟨chattering, some ⟨none, Task.starting ⟨['A']⟩ fun _ => .done⟩, []⟩ :=
    ((Run.start.enter lawful).next .subscribe).next .publish
  let asked := (chattering.subscribe .fetchResult (Task.listener ⟨['A']⟩)).enqueue (.scan ⟨['A']⟩)
  have evaluated : (asked.drain 5).map (fun now => (Task.await ⟨⟨['A']⟩, 1⟩ true now).1) =
      some (.resolved ['a'] none) := by
    decide +kernel
  obtain ⟨now, drained, resolved⟩ := Option.map_eq_some_iff.mp evaluated
  obtain ⟨_, marks, drains⟩ := run_drain (Lawful (Task.privacy 1)) drained
  have numbered : (Task.mk ⟨['A']⟩ 1).id = chattering.registry.nextId := rfl
  obtain ⟨_, published, gives⟩ := gives_first_own_answer numbered earlier trivial
    ((Next.publish.run.append Next.done.run).append drains) (fun _ none => nomatch none)
  exact ⟨_, now, published, gives, resolved⟩

end Sample

end Moment

end CobolAnalysis
