/-
Tasks keep the first answer for their own name.

A result that reaches the listeners of several tasks changes the account of a task only
if it is for that task's name and the account is still empty. So, after any sequence
of results, a task has what it had before, or else the first result for its name.
-/

import CobolAnalysis.Proofs.Bus.Delivery
import CobolAnalysis.Resolution.Task

namespace CobolAnalysis

variable {σ : Type}

def Task.registration (task : Task) : Registration (Board σ) :=
  ⟨task.id, .fetchResult, Task.listener task.name⟩

namespace Board

def offer (board : Board σ) (result : FetchResult) (task : Task) : Board σ :=
  if result.name = task.name then board.keepFirst task.id result else board

/-- One result heard by the listeners of several tasks, in order. -/
def hear (board : Board σ) (result : FetchResult) : List Task → Board σ
  | [] => board
  | task :: rest => (board.offer result task).hear result rest

def hearAll (board : Board σ) (tasks : List Task) : List FetchResult → Board σ
  | [] => board
  | result :: rest => (board.hear result tasks).hearAll tasks rest

theorem client_hear (board : Board σ) (result : FetchResult) (tasks : List Task) :
    (board.hear result tasks).client = board.client := by
  induction tasks generalizing board with
  | nil => rfl
  | cons task rest ih =>
      refine (ih (board.offer result task)).trans ?_
      unfold offer
      split
      · rfl
      · rfl

theorem client_hearAll (board : Board σ) (tasks : List Task) (results : List FetchResult) :
    (board.hearAll tasks results).client = board.client := by
  induction results generalizing board with
  | nil => rfl
  | cons result rest ih =>
      exact (ih (board.hear result tasks)).trans (client_hear board result tasks)

theorem answers_offer (board : Board σ) (result : FetchResult) (task : Task) :
    (board.offer result task).answers.get? task.id =
      (board.answers.get? task.id).or
        (if result.name = task.name then some result else none) := by
  unfold offer
  by_cases own : result.name = task.name
  · rw [if_pos own, if_pos own]
    refine (Table.get?_alter board.answers task.id task.id _).trans ?_
    rw [if_pos rfl]
    cases board.answers.get? task.id with
    | none => rfl
    | some kept => rfl
  · rw [if_neg own, if_neg own, Option.or_none]

theorem answers_offer_other (board : Board σ) (result : FetchResult) (task : Task) (id : Nat)
    (foreign : id ≠ task.id) :
    (board.offer result task).answers.get? id = board.answers.get? id := by
  unfold offer
  split
  · exact (Table.get?_alter board.answers task.id id _).trans (if_neg foreign)
  · rfl

theorem answers_hear_other (board : Board σ) (result : FetchResult) (tasks : List Task) (id : Nat)
    (foreign : id ∉ tasks.map Task.id) :
    (board.hear result tasks).answers.get? id = board.answers.get? id := by
  induction tasks generalizing board with
  | nil => rfl
  | cons task rest ih =>
      have headTail := List.ne_and_not_mem_of_not_mem_cons foreign
      exact (ih (board.offer result task) headTail.2).trans
        (answers_offer_other board result task id headTail.1)

theorem answers_hear (board : Board σ) (result : FetchResult) (tasks : List Task)
    (distinct : (tasks.map Task.id).Nodup) (task : Task) (member : task ∈ tasks) :
    (board.hear result tasks).answers.get? task.id =
      (board.answers.get? task.id).or
        (if result.name = task.name then some result else none) := by
  induction tasks generalizing board with
  | nil => exact absurd member List.not_mem_nil
  | cons head rest ih =>
      have headTail := List.nodup_cons.mp distinct
      rcases List.mem_cons.mp member with atHead | inRest
      · subst atHead
        exact (answers_hear_other _ result rest task.id headTail.1).trans
          (answers_offer board result task)
      · have apart : task.id ≠ head.id := by
          intro same
          exact headTail.1 (same ▸ List.mem_map_of_mem inRest)
        refine (ih (board.offer result head) headTail.2 inRest).trans ?_
        rw [answers_offer_other board result head task.id apart]

theorem answers_hearAll_other (board : Board σ) (tasks : List Task) (results : List FetchResult)
    (id : Nat) (foreign : id ∉ tasks.map Task.id) :
    (board.hearAll tasks results).answers.get? id = board.answers.get? id := by
  induction results generalizing board with
  | nil => rfl
  | cons result rest ih =>
      exact (ih (board.hear result tasks)).trans (answers_hear_other board result tasks id foreign)

theorem answers_hearAll (board : Board σ) (tasks : List Task) (results : List FetchResult)
    (distinct : (tasks.map Task.id).Nodup) (task : Task) (member : task ∈ tasks) :
    (board.hearAll tasks results).answers.get? task.id =
      (board.answers.get? task.id).or
        (results.find? fun result => result.name = task.name) := by
  induction results generalizing board with
  | nil => exact Option.or_none.symm
  | cons result rest ih =>
      refine (ih (board.hear result tasks)).trans ?_
      rw [answers_hear board result tasks distinct task member, Option.or_assoc, List.find?_cons]
      congr 1
      by_cases own : result.name = task.name
      · rw [if_pos own, decide_eq_true own, Option.some_or]
      · rw [if_neg own, decide_eq_false own, Option.none_or]

end Board

namespace Bus

theorem perform_listener (bus : Bus (Board σ)) (task : Task) (result : FetchResult) :
    bus.perform (Task.listener task.name task.id (.fetch result)) =
      { bus with state := bus.state.offer result task } := by
  unfold Task.listener Board.offer
  by_cases own : result.name = task.name
  · simp only [if_pos own]
    rfl
  · simp only [if_neg own]
    rfl

theorem deliver_listeners (bus : Bus (Board σ)) (result : FetchResult) (tasks : List Task) :
    bus.deliver (.fetch result) (tasks.map Task.registration) =
      { bus with state := bus.state.hear result tasks } := by
  induction tasks generalizing bus with
  | nil => rfl
  | cons task rest ih =>
      change (bus.perform (Task.listener task.name task.id (.fetch result))).deliver _ _ = _
      rw [perform_listener, ih]
      rfl

theorem drain_results (bus : Bus (Board σ)) (results : List FetchResult) (tasks : List Task)
    (limit : Nat) (enough : results.length ≤ limit)
    (waiting : bus.dispatch = .delivering
      (results.map fun result => ⟨.fetch result, tasks.map Task.registration⟩)) :
    bus.drain limit =
      some ⟨bus.registry, .idle, bus.state.hearAll tasks results⟩ := by
  induction results generalizing bus limit with
  | nil =>
      unfold drain
      rw [waiting]
      rfl
  | cons result rest ih =>
      obtain ⟨remaining, rfl⟩ : ∃ remaining, limit = remaining + 1 :=
        Nat.exists_eq_add_one_of_ne_zero (Nat.ne_of_gt (Nat.lt_of_lt_of_le (Nat.succ_pos _) enough))
      unfold drain
      rw [waiting]
      simp only [List.map_cons]
      rw [deliver_listeners, ih _ remaining (Nat.le_of_succ_le_succ enough) rfl]
      rfl

end Bus

end CobolAnalysis
