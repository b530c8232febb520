/-
The requests of an analysis, as the bus sees them.

For the bus an analysis is the program around it, which starts tasks, ends them, and does
nothing else. Observers may publish what they like while a request is being delivered. What
the program publishes itself is a scan request for each copybook that the analysis notes
to have asked for, in this order, and no other event.
-/

import CobolAnalysis.Proofs.Analysis.BusAfterwards

namespace CobolAnalysis

variable {σ : Type}

/-! ### What the program around the bus publishes itself -/

namespace Moment

/-- The event that the program is about to publish. -/
def voiced (moment : Moment σ) : List Event :=
  match moment.course with
  | some ⟨runner, .publish event _⟩ => if runner = none then [event] else []
  | _ => []

/-- From the first moment on, with the events that the program publishes, but not those that the
observers publish. -/
inductive Speaks (may : Procedure σ → σ → Prop) (first : Moment σ) :
    List Event → List (Mark σ) → Moment σ → Prop where
  | start : Speaks may first [] [] first
  | next {said marks more moment after} (speaks : Speaks may first said marks moment)
      (step : moment.Next more after) :
      Speaks may first (said ++ moment.voiced) (marks ++ more) after
  | enter {said marks bus procedure due} (speaks : Speaks may first said marks ⟨bus, none, due⟩)
      (allowed : may procedure bus.state) :
      Speaks may first said marks ⟨bus, some ⟨none, procedure⟩, due⟩

variable {may : Procedure σ → σ → Prop} {first moment after : Moment σ}
  {said heard : List Event} {marks more : List (Mark σ)}

theorem Speaks.run (speaks : Speaks may first said marks moment) : Run may first marks moment := by
  induction speaks with
  | start => exact .start
  | next speaks step ih => exact ih.next step
  | enter speaks allowed ih => exact ih.enter allowed

theorem Next.voiced_sublist (step : moment.Next marks after) :
    moment.voiced.Sublist ((publications marks).map Publication.event) := by
  cases step with
  | @publish bus runner event rest due =>
      cases runner with
      | none => exact List.Sublist.refl _
      | some id => exact List.nil_sublist _
  | _ => exact List.nil_sublist _

/-- What the program publishes is among all that is published, in the same order. -/
theorem Speaks.sublist (speaks : Speaks may first said marks moment) :
    said.Sublist ((publications marks).map Publication.event) := by
  induction speaks with
  | start => exact List.Sublist.refl _
  | next speaks step ih =>
      rw [publications_append, List.map_append]
      exact ih.append step.voiced_sublist
  | enter speaks allowed ih => exact ih

theorem Speaks.append (speaks : Speaks may first said marks moment)
    (further : Speaks may moment heard more after) :
    Speaks may first (said ++ heard) (marks ++ more) after := by
  induction further with
  | start =>
      rw [List.append_nil, List.append_nil]
      exact speaks
  | next further step ih =>
      rw [← List.append_assoc, ← List.append_assoc]
      exact ih.next step
  | enter further allowed ih => exact ih.enter allowed

/-- No procedure of the program is under way. -/
def Foreign (moment : Moment σ) : Prop := ∀ ahead, moment.course ≠ some ⟨none, ahead⟩

theorem foreign_between (bus : Bus σ) : (between bus).Foreign := fun _ none => nomatch none

theorem Foreign.voiced (foreign : moment.Foreign) : moment.voiced = [] := by
  unfold Moment.voiced
  split
  next runner event rest course =>
    have other : runner ≠ none := by
      rintro rfl
      exact foreign _ course
    exact if_neg other
  next => rfl

theorem Next.foreign (step : moment.Next marks after) (foreign : moment.Foreign) :
    after.Foreign := by
  cases step with
  | publish | subscribe | unsubscribe | read | write =>
      rintro ahead ⟨⟩
      exact foreign _ rfl
  | done | panic | call | take | rest => exact fun _ other => nomatch other

theorem Run.silent (run : Run Undisturbed first marks moment) (foreign : first.Foreign) :
    Speaks may first [] marks moment ∧ moment.Foreign := by
  induction run with
  | start => exact ⟨.start, foreign⟩
  | next run step ih =>
      obtain ⟨speaks, waits⟩ := ih
      have further := speaks.next step
      rw [waits.voiced] at further
      exact ⟨further, step.foreign waits⟩
  | enter run allowed ih => exact allowed.elim

end Moment

/-! ### Tasks -/

namespace Task

def ending (id : Nat) : Procedure (Board σ) :=
  .unsubscribe id fun _ => .modify (fun board => board.forget id) .done

/-- Tasks are started and ended, and nothing else is done. -/
def Only (procedure : Procedure (Board σ)) (_ : Board σ) : Prop :=
  (∃ name, procedure = starting name fun _ => .done) ∨ ∃ id, procedure = ending id

/-- Starting a task publishes the request for its name and nothing else. -/
theorem start_speaks {limit : Nat} {name : LogicalName} {bus asked : Bus (Board σ)} {task : Task}
    (started : Task.start limit name bus = some (task, asked)) :
    ∃ marks, Moment.Speaks Only (.between bus) [.scan name] marks (.between asked) := by
  obtain ⟨_, published, same⟩ := Option.map_eq_some_iff.mp started
  cases same
  have starts : Moment.Speaks Only (.between bus) [] []
      ⟨bus, some ⟨none, starting name fun _ => .done⟩, []⟩ :=
    Moment.Speaks.start.enter (.inl ⟨name, rfl⟩)
  have asks : Moment.Speaks Only (.between bus) [.scan name] _
      (.between ((bus.subscribe .fetchResult (listener name)).enqueue (.scan name))) :=
    ((starts.next .subscribe).next .publish).next .done
  unfold Bus.publish at published
  split at published
  next =>
    obtain ⟨_, marks, drains⟩ := Moment.run_drain Moment.Undisturbed published
    exact ⟨_, asks.append (drains.silent (Moment.foreign_between _)).1⟩
  next =>
    cases published
    exact ⟨_, asks⟩

theorem close_speaks (task : Task) (bus : Bus (Board σ)) :
    ∃ marks, Moment.Speaks Only (.between bus) [] marks (.between (task.close bus)) := by
  have ends : Moment.Speaks Only (.between bus) [] [] ⟨bus, some ⟨none, ending task.id⟩, []⟩ :=
    Moment.Speaks.start.enter (.inr ⟨task.id, rfl⟩)
  exact ⟨_, (((ends.next .unsubscribe).next .read).next .write).next .done⟩

end Task

/-! ### Turns and analyses -/

def Request.event (request : Request) : Event := .scan request.name

namespace Analyzer

variable {reading : Reading} {config : Config} {limit : Nat} {flag : Part σ Bool}
  {turn : Turn (Bus (Board σ)) Task} {turns : List (Turn (Bus (Board σ)) Task)}
  {ledger last : Ledger (Bus (Board σ))}

theorem Makes.speaks (makes : (Analyzer.mk reading config (.overBus limit flag)).Makes turn) :
    ∃ marks, Moment.Speaks Task.Only (.between turn.before.world) (turn.asked.map Request.event)
      marks (.between turn.after.world) := by
  cases makes with
  | asked admitted first going requested => exact Task.start_speaks requested
  | awaited => exact Task.close_speaks _ _
  | _ => exact ⟨[], .start⟩

theorem Passes.speaks
    (passes : (Analyzer.mk reading config (.overBus limit flag)).Passes ledger turns last) :
    ∃ marks, Moment.Speaks Task.Only (.between ledger.world)
      ((turns.flatMap Turn.asked).map Request.event) marks (.between last.world) := by
  induction turns generalizing ledger with
  | nil =>
      cases passes
      exact ⟨[], .start⟩
  | cons turn later ih =>
      obtain ⟨rfl, makes, onward⟩ := passes
      obtain ⟨here, speaks⟩ := makes.speaks
      obtain ⟨others, further⟩ := ih onward
      rw [List.flatMap_cons, List.map_append]
      exact ⟨here ++ others, speaks.append further⟩

/-- An analysis is a run in which tasks are started and ended. Among all that is published on the
way, the program's own part is one scan request for each request that is noted, in order. -/
theorem requests_published {subject : Scenario.Bench.Subject} {world : Bus (Board σ)}
    {outcome : Outcome (Bus (Board σ))}
    (ran : (Analyzer.mk reading config (.overBus limit flag)).run subject world = some outcome) :
    ∃ marks, Moment.Run Task.Only (.between world) marks (.between outcome.world) ∧
      Moment.Speaks Task.Only (.between world) (outcome.requests.map Request.event) marks
        (.between outcome.world) ∧
      (outcome.requests.map Request.event).Sublist
        ((publications marks).map Publication.event) := by
  obtain ⟨tree, turns, recounts, _⟩ := run_recounts ran
  obtain ⟨ledger, passes, ends⟩ := recounts.passes_to ran
  obtain ⟨marks, speaks⟩ := passes.speaks
  rw [← recounts.requests, ends] at speaks
  exact ⟨marks, speaks.run, speaks, speaks.sublist⟩

end Analyzer

end CobolAnalysis
