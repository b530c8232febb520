/-
Who is registered, after whatever has happened on a bus.

Registrations are made and ended by the procedures that are under way and by others beside
them, at any moment of a delivery. Noted one after the other, these changes determine the
registrations: those are registered who have joined and have not left since, in the order in
which they joined. Numbers are given out in order and never again, so ending a registration
ends that one only, and is answered by whether it was there.
-/

import CobolAnalysis.Proofs.Bus.Stillness

namespace CobolAnalysis

variable {σ : Type}

/-! ### Changes -/

/-- Giving up a registration by its number and dropping the guard of it are the same change. -/
inductive Change (σ : Type) where
  | joined (registration : Registration σ)
  | left (id : Nat) (present : Bool)

namespace Change

def registration? : Change σ → Option (Registration σ)
  | joined registration => some registration
  | left _ _ => none

def leaver? : Change σ → Option Nat
  | joined _ => none
  | left id _ => some id

end Change

def newcomers (changes : List (Change σ)) : List (Registration σ) :=
  changes.filterMap Change.registration?

def leavers (changes : List (Change σ)) : List Nat := changes.filterMap Change.leaver?

def standing : List (Change σ) → List (Registration σ)
  | [] => []
  | .joined registration :: later =>
      if registration.id ∈ leavers later then standing later else registration :: standing later
  | .left _ _ :: later => standing later

/-- Only numbers that were given out before are given back. -/
def GivenOut (changes : List (Change σ)) : Prop :=
  ∀ before id present after, changes = before ++ .left id present :: after →
    ∃ registration ∈ newcomers before, registration.id = id

theorem newcomers_append (first second : List (Change σ)) :
    newcomers (first ++ second) = newcomers first ++ newcomers second :=
  List.filterMap_append

theorem leavers_append (first second : List (Change σ)) :
    leavers (first ++ second) = leavers first ++ leavers second :=
  List.filterMap_append

theorem noted_cases {changes before after : List (Change σ)} {last noted : Change σ}
    (split : changes ++ [last] = before ++ noted :: after) :
    (changes = before ∧ last = noted) ∨ ∃ earlier, changes = before ++ noted :: earlier := by
  rcases List.eq_nil_or_concat after with rfl | ⟨earlier, final, rfl⟩
  · obtain ⟨same, ends⟩ := List.append_inj' split rfl
    exact Or.inl ⟨same, List.singleton_inj.mp ends⟩
  · rw [List.concat_eq_append, ← List.cons_append, ← List.append_assoc] at split
    exact Or.inr ⟨earlier, List.append_inj_left' split rfl⟩

theorem GivenOut.init {changes : List (Change σ)} {last : Change σ}
    (givenOut : GivenOut (changes ++ [last])) : GivenOut changes := by
  intro before id present after split
  refine givenOut before id present (after ++ [last]) ?_
  rw [split, List.append_assoc, List.cons_append]

theorem GivenOut.nil : GivenOut ([] : List (Change σ)) := fun _ _ _ _ split =>
  absurd split.symm (List.append_ne_nil_of_right_ne_nil _ (List.cons_ne_nil _ _))

theorem GivenOut.joined {changes : List (Change σ)} (givenOut : GivenOut changes)
    (registration : Registration σ) : GivenOut (changes ++ [.joined registration]) := by
  intro before id present after split
  rcases noted_cases split with ⟨_, other⟩ | ⟨earlier, noted⟩
  · cases other
  · exact givenOut before id present earlier noted

theorem GivenOut.left {changes : List (Change σ)} (givenOut : GivenOut changes) (id : Nat)
    (issued : id ∈ (newcomers changes).map Registration.id) (present : Bool) :
    GivenOut (changes ++ [.left id present]) := by
  intro before other answer after split
  rcases noted_cases split with ⟨same, now⟩ | ⟨earlier, noted⟩
  · cases now
    rw [← same]
    exact List.mem_map.mp issued
  · exact givenOut before other answer earlier noted

theorem standing_concat_joined (changes : List (Change σ)) (registration : Registration σ) :
    standing (changes ++ [.joined registration]) = standing changes ++ [registration] := by
  induction changes with
  | nil => rfl
  | cons change later ih =>
      cases change with
      | left id present => exact ih
      | joined earlier =>
          have same : leavers (later ++ [.joined registration]) = leavers later :=
            (leavers_append _ _).trans (List.append_nil _)
          rw [List.cons_append, standing, standing, same, ih]
          split
          · rfl
          · rfl

theorem standing_concat_left (changes : List (Change σ)) (id : Nat) (present : Bool) :
    standing (changes ++ [.left id present]) =
      (standing changes).filter fun registration => registration.id != id := by
  induction changes with
  | nil => rfl
  | cons change later ih =>
      cases change with
      | left other present => exact ih
      | joined registration =>
          have either : registration.id ∈ leavers (later ++ [.left id present]) ↔
              registration.id ∈ leavers later ∨ registration.id = id := by
            rw [leavers_append, List.mem_append]
            exact or_congr_right List.mem_singleton
          rw [List.cons_append, standing, standing, ih]
          by_cases gone : registration.id ∈ leavers later
          · rw [if_pos (either.mpr (Or.inl gone)), if_pos gone]
          · rw [if_neg gone]
            by_cases now : registration.id = id
            · rw [if_pos (either.mpr (Or.inr now)), List.filter_cons_of_neg (by simp [now])]
            · rw [if_neg fun member => (either.mp member).elim gone now,
                List.filter_cons_of_pos (by simp [now])]

namespace Registry

/-! ### The registry after its changes -/

/-- The registry that the changes lead to, from the beginning on. -/
inductive Recorded : Registry σ → List (Change σ) → Prop where
  | empty : Recorded .empty []
  | add {registry : Registry σ} {changes : List (Change σ)}
      (recorded : Recorded registry changes) (kind : EventKind) (observer : Observer σ) :
      Recorded (registry.add kind observer)
        (changes ++ [.joined (registry.candidate kind observer)])
  | remove {registry : Registry σ} {changes : List (Change σ)}
      (recorded : Recorded registry changes) (id : Nat) :
      Recorded (registry.remove id) (changes ++ [.left id (registry.holds id)])

variable {registry : Registry σ} {changes : List (Change σ)}

theorem Recorded.registrations (recorded : Recorded registry changes) :
    registry.registrations = standing changes := by
  induction recorded with
  | empty => rfl
  | add recorded kind observer ih =>
      rw [standing_concat_joined, ← ih]
      rfl
  | remove recorded id ih =>
      rw [standing_concat_left, ← ih]
      rfl

theorem Recorded.issued (recorded : Recorded registry changes) :
    (newcomers changes).map Registration.id = List.range registry.nextId := by
  induction recorded with
  | empty => rfl
  | add recorded kind observer ih =>
      rw [newcomers_append, List.map_append, ih]
      exact List.range_succ.symm
  | remove recorded id ih =>
      rw [newcomers_append]
      exact (congrArg (List.map Registration.id) (List.append_nil _)).trans ih

theorem Recorded.holds_iff (recorded : Recorded registry changes) (id : Nat) :
    registry.holds id = true ↔ ∃ registration ∈ standing changes, registration.id = id := by
  rw [← recorded.registrations]
  exact registry.holds_iff id

theorem Recorded.answers (recorded : Recorded registry changes) {before after : List (Change σ)}
    {id : Nat} {present : Bool} (split : changes = before ++ .left id present :: after) :
    present = true ↔ ∃ registration ∈ standing before, registration.id = id := by
  induction recorded generalizing after with
  | empty => exact absurd split.symm (List.append_ne_nil_of_right_ne_nil _ (List.cons_ne_nil _ _))
  | add recorded kind observer ih =>
      rcases noted_cases split with ⟨_, other⟩ | ⟨earlier, noted⟩
      · cases other
      · exact ih noted
  | remove recorded other ih =>
      rcases noted_cases split with ⟨same, now⟩ | ⟨earlier, noted⟩
      · cases now
        rw [← same]
        exact recorded.holds_iff id
      · exact ih noted

theorem Recorded.leaver_lt (recorded : Recorded registry changes) (givenOut : GivenOut changes)
    {id : Nat} (left : id ∈ leavers changes) : id < registry.nextId := by
  obtain ⟨change, noted, names⟩ := List.mem_filterMap.mp left
  cases change with
  | joined registration => cases names
  | left other present =>
      cases names
      obtain ⟨before, after, rfl⟩ := List.append_of_mem noted
      obtain ⟨registration, made, rfl⟩ := givenOut before _ present after rfl
      rw [← List.mem_range, ← recorded.issued, newcomers_append, List.map_append]
      exact List.mem_append_left _ (List.mem_map_of_mem made)

/-- As long as only numbers that were given out are given back, those are registered who have
joined and have not left, at whatever time. -/
theorem Recorded.standing_eq (recorded : Recorded registry changes) (givenOut : GivenOut changes) :
    standing changes =
      (newcomers changes).filter fun registration => registration.id ∉ leavers changes := by
  induction recorded with
  | empty => rfl
  | @add registry changes recorded kind observer ih =>
      have noMore : leavers (changes ++ [.joined (registry.candidate kind observer)]) =
          leavers changes := (leavers_append _ _).trans (List.append_nil _)
      have fresh : (registry.candidate kind observer).id ∉ leavers changes := fun left =>
        Nat.lt_irrefl registry.nextId (recorded.leaver_lt givenOut.init left)
      rw [standing_concat_joined, ih givenOut.init, noMore, newcomers_append, List.filter_append]
      refine congrArg _ (List.filter_eq_self.mpr fun registration only => ?_).symm
      rw [List.mem_singleton.mp only]
      exact decide_eq_true fresh
  | @remove registry changes recorded id ih =>
      have same : newcomers (changes ++ [.left id (registry.holds id)]) = newcomers changes :=
        (newcomers_append _ _).trans (List.append_nil _)
      rw [standing_concat_left, ih givenOut.init, same, List.filter_filter]
      refine List.filter_congr fun registration _ => ?_
      rw [Bool.eq_iff_iff, Bool.and_eq_true, bne_iff_ne, decide_eq_true_iff, decide_eq_true_iff,
        leavers_append, List.mem_append, not_or, and_comm]
      exact and_congr_right fun _ => (not_congr List.mem_singleton).symm

/-! ### Ending one registration -/

theorem observers_remove_absent {id : Nat} (absent : registry.holds id = false)
    (kind : EventKind) : (registry.remove id).observers kind = registry.observers kind := by
  rw [observers_remove]
  refine List.filter_eq_self.mpr fun registration member => bne_iff_ne.mpr fun same => ?_
  have there := (registry.holds_iff id).mpr ⟨registration, (List.mem_filter.mp member).1, same⟩
  rw [absent] at there
  cases there

theorem observers_remove_other {kind other : EventKind} {registration : Registration σ}
    (registered : registration ∈ registry.observers kind) (different : other ≠ kind) :
    (registry.remove registration.id).observers other = registry.observers other := by
  rw [observers_remove]
  refine List.filter_eq_self.mpr fun another member => bne_iff_ne.mpr ?_
  exact registry.id_ne_of_kind_ne different another registration member registered

theorem observers_remove_own {kind : EventKind} {before after : List (Registration σ)}
    {registration : Registration σ}
    (registered : registry.observers kind = before ++ registration :: after) :
    (registry.remove registration.id).observers kind = before ++ after := by
  rw [observers_remove]
  exact filter_id_middle (registry.ordered.filter _) registered

end Registry

/-! ### Histories -/

namespace Moment

/-- What the next operation of the procedure under way changes about who is registered. -/
def change? (moment : Moment σ) : Option (Change σ) :=
  match moment.course with
  | some ⟨_, .subscribe kind observer _⟩ =>
      some (.joined (moment.bus.registry.candidate kind observer))
  | some ⟨_, .unsubscribe id _⟩ => some (.left id (moment.bus.registry.holds id))
  | _ => none

/-- From the first moment on, with all changes. Besides the procedures that are under way, in which
events may be published and observers are called, anyone may join and leave at any moment. -/
inductive History (first : Moment σ) : List (Change σ) → Moment σ → Prop where
  | start : History first [] first
  | next {changes marks moment after} (history : History first changes moment)
      (step : moment.Next marks after) : History first (changes ++ moment.change?.toList) after
  | enter {changes bus due} (history : History first changes ⟨bus, none, due⟩)
      (procedure : Procedure σ) : History first changes ⟨bus, some ⟨none, procedure⟩, due⟩
  | join {changes bus course due} (history : History first changes ⟨bus, course, due⟩)
      (kind : EventKind) (observer : Observer σ) :
      History first (changes ++ [.joined (bus.registry.candidate kind observer)])
        ⟨bus.subscribe kind observer, course, due⟩
  | leave {changes bus course due} (history : History first changes ⟨bus, course, due⟩)
      (id : Nat) :
      History first (changes ++ [.left id (bus.registry.holds id)])
        ⟨bus.unsubscribe id, course, due⟩

variable {may : Procedure σ → σ → Prop} {first moment after : Moment σ} {marks : List (Mark σ)}
  {changes : List (Change σ)}

theorem History.run (history : History first changes moment) (run : Run may moment marks after) :
    ∃ more, History first (changes ++ more) after := by
  induction run with
  | start => exact ⟨[], by rwa [List.append_nil]⟩
  | @next marks further moment after run step ih =>
      obtain ⟨more, reached⟩ := ih
      refine ⟨more ++ moment.change?.toList, ?_⟩
      rw [← List.append_assoc]
      exact reached.next step
  | @enter marks bus procedure due run allowed ih =>
      obtain ⟨more, reached⟩ := ih
      exact ⟨more, reached.enter procedure⟩

theorem History.publish {bus published : Bus σ} {limit : Nat} {event : Event}
    (history : History first changes (between bus)) (outermost : bus.dispatch = .idle)
    (returned : bus.publish limit event = some published) :
    ∃ more, History first (changes ++ more) (between published) := by
  obtain ⟨_, marks, run⟩ := (Bus.publish_returns_iff outermost event).mp ⟨limit, returned⟩
  have entered := history.enter (.publish event .done)
  have lined : History first ((changes ++ []) ++ []) (between (bus.enqueue event)) :=
    (entered.next .publish).next .done
  rw [List.append_nil, List.append_nil] at lined
  exact lined.run run

theorem Next.recorded (step : moment.Next marks after)
    (recorded : moment.bus.registry.Recorded changes) :
    after.bus.registry.Recorded (changes ++ moment.change?.toList) := by
  cases step with
  | subscribe => exact recorded.add _ _
  | unsubscribe => exact recorded.remove _
  | _ =>
      change Registry.Recorded _ (changes ++ [])
      rw [List.append_nil]
      exact recorded

theorem History.recorded {state : σ} (history : History (between (.ofState state)) changes moment) :
    moment.bus.registry.Recorded changes := by
  induction history with
  | start => exact .empty
  | next history step ih => exact step.recorded ih
  | enter history procedure ih => exact ih
  | join history kind observer ih => exact ih.add kind observer
  | leave history id ih => exact ih.remove id

theorem Next.answer (step : moment.Next marks after)
    (recorded : moment.bus.registry.Recorded changes) {runner : Option Nat} {id : Nat}
    {next : Bool → Procedure σ} (underWay : moment.course = some ⟨runner, .unsubscribe id next⟩) :
    ∃ present, after.course = some ⟨runner, next present⟩ ∧
      (present = true ↔ ∃ registration ∈ standing changes, registration.id = id) := by
  cases step with
  | unsubscribe =>
      cases underWay
      exact ⟨_, rfl, recorded.holds_iff id⟩
  | _ => cases underWay

end Moment

/-- What the changes say of a registry: who is registered, which numbers were given out, and what
those were told who gave a number back. -/
structure Registry.Exact (registry : Registry σ) (changes : List (Change σ)) : Prop where
  observers : ∀ kind, registry.observers kind =
    (standing changes).filter fun registration => registration.kind == kind
  untouched : GivenOut changes → ∀ kind, registry.observers kind =
    ((newcomers changes).filter fun registration => registration.id ∉ leavers changes).filter
      fun registration => registration.kind == kind
  ordered : ∀ kind, (registry.observers kind).Pairwise fun earlier later => earlier.id < later.id
  below : ∀ kind, ∀ registration ∈ registry.observers kind, registration.id < registry.nextId
  issued : (newcomers changes).map Registration.id = List.range registry.nextId
  answers : ∀ before id present after, changes = before ++ .left id present :: after →
    (present = true ↔ ∃ registration ∈ standing before, registration.id = id)

/-- To end a registration is to end this one only, and none if there is none of the number. -/
structure Registry.EndsAlone (registry : Registry σ) : Prop where
  absent : ∀ id, registry.holds id = false → ∀ kind,
    (registry.remove id).observers kind = registry.observers kind
  own : ∀ kind before registration after,
    registry.observers kind = before ++ registration :: after →
      (registry.remove registration.id).observers kind = before ++ after
  other : ∀ kind, ∀ registration ∈ registry.observers kind, ∀ other, other ≠ kind →
    (registry.remove registration.id).observers other = registry.observers other

theorem Registry.Recorded.exact {registry : Registry σ} {changes : List (Change σ)}
    (recorded : registry.Recorded changes) : registry.Exact changes := by
  have observers : ∀ kind, registry.observers kind =
      (standing changes).filter fun registration => registration.kind == kind := by
    intro kind
    rw [← recorded.registrations]
    rfl
  exact {
    observers
    untouched := fun givenOut kind => by rw [observers, recorded.standing_eq givenOut]
    ordered := fun kind => registry.ordered.filter _
    below := registry.id_lt_nextId
    issued := recorded.issued
    answers := fun before id present after split => recorded.answers split }

theorem Registry.endsAlone (registry : Registry σ) : registry.EndsAlone where
  absent _ absent kind := observers_remove_absent absent kind
  own _ _ _ _ registered := observers_remove_own registered
  other _ _ registered _ different := observers_remove_other registered different

/-- At every moment of the history of a bus, inside and outside of deliveries, the registrations are
those that the changes determine, and the procedure that gives a number back learns whether it
was still registered. The publications that return are part of the history. -/
theorem Moment.registered_exactly {state : σ} {changes : List (Change σ)} {moment : Moment σ}
    (history : History (between (.ofState state)) changes moment) :
    moment.bus.registry.Exact changes ∧ moment.bus.registry.EndsAlone ∧
      (∀ runner id next, moment.course = some ⟨runner, .unsubscribe id next⟩ →
        ∀ marks after, moment.Next marks after →
          ∃ present, after.course = some ⟨runner, next present⟩ ∧
            (present = true ↔ ∃ registration ∈ standing changes, registration.id = id)) ∧
      ∀ limit event published, moment = between moment.bus → moment.bus.dispatch = .idle →
        moment.bus.publish limit event = some published →
          ∃ more, History (between (.ofState state)) (changes ++ more) (between published) := by
  refine ⟨history.recorded.exact, moment.bus.registry.endsAlone, ?_, ?_⟩
  · intro runner id next underWay marks after step
    exact step.answer history.recorded underWay
  · intro limit event published atRest outermost returned
    rw [atRest] at history
    exact history.publish outermost returned

section Sample

def Registration.parting : Registration Unit :=
  ⟨0, .scanRequest, fun id _ => .unsubscribe id fun _ => .done⟩

def Registration.staying : Registration Unit := ⟨1, .fetchResult, fun _ _ => .done⟩

def Registration.late : Registration Unit := ⟨2, .scanRequest, fun _ _ => .done⟩

/-- The two first ones join, and the first one is called. -/
def Procedure.gathering : Procedure Unit :=
  .subscribe .scanRequest Registration.parting.observer fun _ =>
    .subscribe .fetchResult Registration.staying.observer fun _ =>
      .publish (.scan ⟨['A']⟩) .done

/-- The number is given back a second time while the observer is still under way, and the one who
joins then gets another. -/
theorem Moment.gathering_registered_exactly :
    ∃ moment, History (between (.ofState ())) [.joined .parting, .joined .staying, .left 0 true,
        .left 0 false, .joined .late] moment ∧
      moment.course = some ⟨some 0, .done⟩ ∧
      moment.bus.registry.observers .scanRequest = [.late] ∧
      moment.bus.registry.observers .fetchResult = [.staying] ∧
      GivenOut [.joined .parting, .joined .staying, .left 0 true, .left 0 false, .joined .late] ∧
      moment.bus.registry.Exact [.joined .parting, .joined .staying, .left 0 true, .left 0 false,
        .joined .late] := by
  have started : History (between (Bus.ofState ())) [] _ := .start
  have begun := started.enter Procedure.gathering
  have published := (((begun.next .subscribe).next .subscribe).next .publish).next .done
  have parted := ((published.next (.take rfl)).next .call).next .unsubscribe
  have history := (parted.leave 0).join .scanRequest Registration.late.observer
  have givenOut := ((((GivenOut.nil.joined .parting).joined .staying).left 0 List.mem_cons_self
    true).left 0 List.mem_cons_self false).joined .late
  exact ⟨_, history, rfl, rfl, rfl, givenOut, (registered_exactly history).1⟩

end Sample

end CobolAnalysis
