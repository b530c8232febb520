/-
Rules that everyone on a bus keeps to.

A rule says what may become of the shared state, depending on the registration whose
procedure is under way, and which registrations may be ended. If all observers heed a
rule, and the program around the bus does too, then so does whatever comes to be
registered, and every change of the state is one that the rule allows.
-/

import CobolAnalysis.Proofs.Bus.Moments

namespace CobolAnalysis

variable {σ τ : Type}

structure Rule (σ : Type) where
  /-- Whether the first state may be replaced with the second. The program around the bus runs
  without a registration of its own. -/
  allows : Option Nat → σ → σ → Prop
  free : Nat → Prop

namespace Procedure

/-- Started in the given state, the procedure heeds the rule, and so does whatever it registers. -/
def Heeds (rule : Rule σ) : Procedure σ → Option Nat → σ → Prop
  | done, _, _ => True
  | panic, _, _ => True
  | publish _ rest, runner, state => rest.Heeds rule runner state
  | subscribe _ observer next, runner, state =>
      (∀ id, rule.free id → ∀ event heard, (observer id event).Heeds rule (some id) heard) ∧
        ∀ id, rule.free id → (next id).Heeds rule runner state
  | unsubscribe id next, runner, state =>
      rule.free id ∧ ∀ present, (next present).Heeds rule runner state
  | read next, runner, state => (next state).Heeds rule runner state
  | write written rest, runner, state =>
      rule.allows runner state written ∧ rest.Heeds rule runner written

theorem Heeds.within {inner : Rule σ} {outer : Rule τ} (part : Part τ σ)
    (allows : ∀ runner state written, inner.allows runner (part.get state) written →
      outer.allows runner state (part.set written state))
    (free : ∀ id, inner.free id ↔ outer.free id) {procedure : Procedure σ} {runner : Option Nat}
    {state : τ} (heeds : procedure.Heeds inner runner (part.get state)) :
    (procedure.within part).Heeds outer runner state := by
  induction procedure generalizing runner state with
  | done => trivial
  | panic => trivial
  | publish event rest ih => exact ih heeds
  | subscribe kind observer next ihObserver ih =>
      constructor
      · intro id isFree event heard
        exact ihObserver id event (heeds.1 id ((free id).mpr isFree) event (part.get heard))
      · intro id isFree
        exact ih id (heeds.2 id ((free id).mpr isFree))
  | unsubscribe id next ih =>
      exact ⟨(free id).mp heeds.1, fun present => ih present (heeds.2 present)⟩
  | read next ih => exact ih (part.get state) heeds
  | write written rest ih =>
      refine ⟨allows runner state written heeds.1, ih ?_⟩
      rw [part.get_set]
      exact heeds.2

theorem Heeds.publishAll {rule : Rule σ} (events : List Event) (runner : Option Nat) (state : σ) :
    (Procedure.publishAll events).Heeds rule runner state := by
  induction events with
  | nil => trivial
  | cons event rest ih => exact ih

end Procedure

def Registration.Heeds (rule : Rule σ) (registration : Registration σ) : Prop :=
  ∀ event state, (registration.observer registration.id event).Heeds rule (some registration.id)
    state

namespace Moment

/-- What the program around the bus may do under the rule. -/
def Lawful (rule : Rule σ) (procedure : Procedure σ) (state : σ) : Prop :=
  procedure.Heeds rule none state

structure Heeds (rule : Rule σ) (moment : Moment σ) : Prop where
  registered : ∀ registration ∈ moment.bus.registry.registrations, registration.Heeds rule
  pending : ∀ call ∈ moment.pending, call.recipient.Heeds rule
  course : ∀ course ∈ moment.course, course.ahead.Heeds rule course.runner moment.bus.state

variable {rule : Rule σ} {may : Procedure σ → σ → Prop} {first moment after : Moment σ}
  {marks : List (Mark σ)}

theorem Next.nextId_le (step : moment.Next marks after) :
    moment.bus.registry.nextId ≤ after.bus.registry.nextId := by
  cases step with
  | subscribe => exact Nat.le_succ _
  | _ => exact Nat.le_refl _

theorem Run.nextId_le (run : Run may first marks moment) :
    first.bus.registry.nextId ≤ moment.bus.registry.nextId := by
  induction run with
  | start => exact Nat.le_refl _
  | next run step ih => exact Nat.le_trans ih step.nextId_le
  | enter run allowed ih => exact ih

theorem Next.registry_of_published (step : moment.Next marks after) {publication : Publication σ}
    (published : publication ∈ publications marks) :
    publication.registry = moment.bus.registry := by
  cases step with
  | publish =>
      rw [List.mem_singleton.mp published]
  | _ => cases published

theorem Next.mem_pending (step : moment.Next marks after) {call : Call σ}
    (due : call ∈ after.pending) :
    call ∈ moment.pending ∨ call.recipient ∈ moment.bus.registry.registrations := by
  have accounted : call ∈ moment.pending ++ (publications marks).flatMap Publication.calls := by
    rw [step.account]
    exact List.mem_append_right _ due
  rcases List.mem_append.mp accounted with old | new
  · exact Or.inl old
  · obtain ⟨publication, published, called⟩ := List.mem_flatMap.mp new
    obtain ⟨recipient, listening, rfl⟩ := List.mem_map.mp called
    rw [step.registry_of_published published] at listening
    exact Or.inr (List.mem_filter.mp listening).1

/-! ### Numbers -/

/-- All numbers that play a part were given out. -/
structure Issued (moment : Moment σ) : Prop where
  pending : ∀ call ∈ moment.pending, call.recipient.id < moment.bus.registry.nextId
  course : ∀ course ∈ moment.course, ∀ id ∈ course.runner, id < moment.bus.registry.nextId

theorem Issued.fresh (state : σ) : (between (.ofState state)).Issued :=
  ⟨List.forall_mem_nil _, fun _ none => nomatch none⟩

theorem Next.issued (step : moment.Next marks after) (issued : moment.Issued) : after.Issued := by
  have course := issued.course
  constructor
  · intro call due
    refine Nat.lt_of_lt_of_le ?_ step.nextId_le
    rcases step.mem_pending due with old | registered
    · exact issued.pending call old
    · exact moment.bus.registry.issued call.recipient registered
  · cases step with
    | publish | unsubscribe | read | write =>
        have before := course _ rfl
        rintro _ ⟨⟩
        exact before
    | subscribe =>
        rintro _ ⟨⟩ id runs
        exact Nat.lt_succ_of_lt (course _ rfl id runs)
    | call =>
        rintro _ ⟨⟩ id ⟨⟩
        exact issued.pending _ (List.mem_append_left _ List.mem_cons_self)
    | _ => exact fun _ none => nomatch none

theorem Run.issued (run : Run may first marks moment) (issued : first.Issued) : moment.Issued := by
  induction run with
  | start => exact issued
  | next run step ih => exact step.issued ih
  | enter run allowed ih =>
      refine ⟨ih.pending, ?_⟩
      rintro _ ⟨⟩
      exact fun _ none => nomatch none

/-! ### Keeping the rule -/

theorem Heeds.fresh (rule : Rule σ) (state : σ) : (between (.ofState state)).Heeds rule :=
  ⟨List.forall_mem_nil _, List.forall_mem_nil _, fun _ none => nomatch none⟩

theorem Next.heeds (step : moment.Next marks after) (heeds : moment.Heeds rule)
    (issues : ∀ id, moment.bus.registry.nextId ≤ id → id < after.bus.registry.nextId →
      rule.free id) : after.Heeds rule := by
  have pending : ∀ call ∈ after.pending, call.recipient.Heeds rule := by
    intro call due
    rcases step.mem_pending due with old | registered
    · exact heeds.pending call old
    · exact heeds.registered call.recipient registered
  have course := heeds.course
  cases step with
  | @publish bus runner event rest due =>
      refine ⟨heeds.registered, pending, ?_⟩
      rintro _ ⟨⟩
      exact course ⟨runner, .publish event rest⟩ rfl
  | @subscribe bus runner kind observer next due =>
      have isFree := issues bus.registry.nextId (Nat.le_refl _) (Nat.lt_succ_self _)
      obtain ⟨listens, continues⟩ := course _ rfl
      refine ⟨?_, pending, ?_⟩
      · intro registration member
        rcases List.mem_append.mp member with old | new
        · exact heeds.registered registration old
        · rw [List.mem_singleton.mp new]
          exact listens bus.registry.nextId isFree
      · rintro _ ⟨⟩
        exact continues bus.registry.nextId isFree
  | unsubscribe =>
      refine ⟨fun registration member => ?_, pending, ?_⟩
      · exact heeds.registered registration (List.mem_filter.mp member).1
      · rintro _ ⟨⟩
        exact (course _ rfl).2 _
  | @read bus runner next due =>
      refine ⟨heeds.registered, pending, ?_⟩
      rintro _ ⟨⟩
      exact course ⟨runner, .read next⟩ rfl
  | write =>
      refine ⟨heeds.registered, pending, ?_⟩
      rintro _ ⟨⟩
      exact (course _ rfl).2
  | call =>
      refine ⟨heeds.registered, pending, ?_⟩
      rintro _ ⟨⟩
      exact heeds.pending _ (List.mem_append_left _ List.mem_cons_self) _ _
  | _ => exact ⟨heeds.registered, pending, fun _ none => nomatch none⟩

theorem Next.allowed (step : moment.Next marks after) (heeds : moment.Heeds rule) :
    after.bus.state = moment.bus.state ∨
      ∃ course ∈ moment.course, rule.allows course.runner moment.bus.state after.bus.state := by
  cases step with
  | write => exact Or.inr ⟨_, rfl, (heeds.course _ rfl).1⟩
  | _ => exact Or.inl rfl

theorem Run.heeds (run : Run (Lawful rule) first marks moment) (heeds : first.Heeds rule)
    (issues : ∀ id, first.bus.registry.nextId ≤ id → id < moment.bus.registry.nextId →
      rule.free id) : moment.Heeds rule := by
  induction run with
  | start => exact heeds
  | next run step ih =>
      refine step.heeds (ih ?_) ?_
      · intro id least below
        exact issues id least (Nat.lt_of_lt_of_le below step.nextId_le)
      · intro id least below
        exact issues id (Nat.le_trans run.nextId_le least) below
  | enter run lawful ih =>
      have before := ih issues
      refine ⟨before.registered, before.pending, ?_⟩
      rintro _ ⟨⟩
      exact lawful

/-- What every change that the rule allows keeps is kept by a whole run. -/
theorem Run.keeps {safe : σ → Prop}
    (allowed : ∀ runner state written, rule.allows runner state written → safe state →
      safe written)
    (run : Run (Lawful rule) first marks moment) (heeds : first.Heeds rule)
    (issues : ∀ id, first.bus.registry.nextId ≤ id → id < moment.bus.registry.nextId →
      rule.free id) (held : safe first.bus.state) : safe moment.bus.state := by
  induction run with
  | start => exact held
  | @next marks more moment after run step ih =>
      have narrower : ∀ id, first.bus.registry.nextId ≤ id → id < moment.bus.registry.nextId →
          rule.free id :=
        fun id least below => issues id least (Nat.lt_of_lt_of_le below step.nextId_le)
      rcases step.allowed (run.heeds heeds narrower) with same | ⟨course, _, changes⟩
      · rw [same]
        exact ih narrower
      · exact allowed course.runner _ _ changes (ih narrower)
  | enter run lawful ih => exact ih issues

end Moment

end CobolAnalysis
