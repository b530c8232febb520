/-
Times in which no one comes to listen on a bus, and no one ceases to.

While no procedure that is under way makes or ends a registration, those who are registered
stay the same, however much is published and whatever is written or panics. That is so
whenever all observers keep to publishing and writing.
-/

import CobolAnalysis.Proofs.Bus.Delivery
import CobolAnalysis.Proofs.Bus.Discipline

namespace CobolAnalysis

variable {σ : Type}

/-- What comes next is neither the beginning of a registration nor the end of one. -/
def Procedure.Quiet : Procedure σ → Prop
  | subscribe _ _ _ => False
  | unsubscribe _ _ => False
  | _ => True

def Registration.Still (registration : Registration σ) : Prop :=
  ∀ event state, (registration.observer registration.id event).Unobtrusive (fun _ => True)
    (fun _ => True) state

namespace Moment

def Quiet (moment : Moment σ) : Prop := ∀ course ∈ moment.course, course.ahead.Quiet

structure Still (moment : Moment σ) : Prop where
  registered : ∀ registration ∈ moment.bus.registry.registrations, registration.Still
  pending : ∀ call ∈ moment.pending, call.recipient.Still
  course : ∀ course ∈ moment.course,
    course.ahead.Unobtrusive (fun _ => True) (fun _ => True) moment.bus.state

variable {may : Procedure σ → σ → Prop} {first moment after : Moment σ} {marks : List (Mark σ)}

theorem Next.registry_eq (step : moment.Next marks after) (quiet : moment.Quiet) :
    after.bus.registry = moment.bus.registry := by
  cases step with
  | subscribe => exact (quiet _ rfl).elim
  | unsubscribe => exact (quiet _ rfl).elim
  | _ => rfl

theorem Run.registry_eq (run : Run may first marks moment)
    (quiet : ∀ marks moment, Run may first marks moment → moment.Quiet) :
    moment.bus.registry = first.bus.registry := by
  induction run with
  | start => rfl
  | next run step ih => exact (step.registry_eq (quiet _ _ run)).trans ih
  | enter run allowed ih => exact ih

/-! ### Observers that keep to publishing and writing -/

theorem Still.quiet (still : moment.Still) : moment.Quiet := by
  rintro ⟨runner, ahead⟩ underWay
  have unobtrusive := still.course _ underWay
  cases ahead with
  | subscribe kind observer next => exact unobtrusive.elim
  | unsubscribe id next => exact unobtrusive.elim
  | _ => trivial

theorem Next.still (step : moment.Next marks after) (still : moment.Still) : after.Still := by
  have pending : ∀ call ∈ after.pending, call.recipient.Still := by
    intro call due
    rcases step.mem_pending due with old | registered
    · exact still.pending call old
    · exact still.registered call.recipient registered
  have registered : ∀ registration ∈ after.bus.registry.registrations, registration.Still := by
    rw [step.registry_eq still.quiet]
    exact still.registered
  refine ⟨registered, pending, ?_⟩
  have course := still.course
  cases step with
  | publish =>
      rintro _ ⟨⟩
      exact (course _ rfl).2
  | subscribe => exact (course _ rfl).elim
  | unsubscribe => exact (course _ rfl).elim
  | @read bus runner next due =>
      rintro _ ⟨⟩
      exact course ⟨runner, .read next⟩ rfl
  | write =>
      rintro _ ⟨⟩
      exact (course _ rfl).2
  | call =>
      rintro _ ⟨⟩
      exact still.pending _ (List.mem_append_left _ List.mem_cons_self) _ _
  | _ => exact fun _ none => nomatch none

theorem Run.still (run : Run Undisturbed first marks moment) (still : first.Still) :
    moment.Still := by
  induction run with
  | start => exact still
  | next run step ih => exact step.still ih
  | enter run allowed ih => exact allowed.elim

end Moment

/-- Everyone on the bus keeps to publishing and writing. -/
def Bus.Still (bus : Bus σ) : Prop := (Moment.between bus).Still

/-! ### Registrations that end -/

theorem filter_id_middle {registrations before after : List (Registration σ)}
    {registration : Registration σ}
    (ordered : registrations.Pairwise fun earlier later => earlier.id < later.id)
    (present : registrations = before ++ registration :: after) :
    registrations.filter (fun other => other.id != registration.id) = before ++ after := by
  rw [present, List.pairwise_append, List.pairwise_cons] at ordered
  obtain ⟨_, ⟨later, _⟩, earlier⟩ := ordered
  have beforeStays : before.filter (fun other => other.id != registration.id) = before := by
    refine List.filter_eq_self.mpr fun other member => bne_iff_ne.mpr ?_
    exact Nat.ne_of_lt (earlier other member registration List.mem_cons_self)
  have afterStays : after.filter (fun other => other.id != registration.id) = after := by
    refine List.filter_eq_self.mpr fun other member => bne_iff_ne.mpr ?_
    exact Nat.ne_of_gt (later other member)
  rw [present, List.filter_append, List.filter_cons_of_neg (by simp), beforeStays, afterStays]

theorem Registry.remove_middle {registry : Registry σ} {before after : List (Registration σ)}
    {registration : Registration σ}
    (present : registry.registrations = before ++ registration :: after) :
    (registry.remove registration.id).registrations = before ++ after :=
  filter_id_middle registry.ordered present

end CobolAnalysis
