/-
Who listens to what.

Registrations are numbered in the order in which they were made, and a number is
never given out twice. One list holds the registrations for all kinds of events;
the observers of a kind are those of its members that are registered for it.

An observer owns no registration: removing one drops its observer, and nothing
else ends with it.
-/

import CobolAnalysis.Bus.Procedure

namespace CobolAnalysis

structure Registration (σ : Type) where
  id : Nat
  kind : EventKind
  observer : Observer σ

structure Registry (σ : Type) where
  nextId : Nat
  registrations : List (Registration σ)
  ordered : registrations.Pairwise fun earlier later => earlier.id < later.id
  issued : ∀ registration ∈ registrations, registration.id < nextId

namespace Registry

variable {σ : Type}

def empty : Registry σ := ⟨0, [], List.Pairwise.nil, fun _ member => absurd member List.not_mem_nil⟩

def candidate (registry : Registry σ) (kind : EventKind) (observer : Observer σ) :
    Registration σ :=
  ⟨registry.nextId, kind, observer⟩

def add (registry : Registry σ) (kind : EventKind) (observer : Observer σ) : Registry σ where
  nextId := registry.nextId + 1
  registrations := registry.registrations ++ [registry.candidate kind observer]
  ordered := by
    refine List.pairwise_append.mpr ⟨registry.ordered, List.pairwise_singleton _ _, ?_⟩
    intro earlier present later atEnd
    rw [List.mem_singleton.mp atEnd]
    exact registry.issued earlier present
  issued := by
    intro registration member
    rcases List.mem_append.mp member with present | atEnd
    · exact Nat.lt_succ_of_lt (registry.issued registration present)
    · rw [List.mem_singleton.mp atEnd]
      exact Nat.lt_succ_self _

def remove (registry : Registry σ) (id : Nat) : Registry σ where
  nextId := registry.nextId
  registrations := registry.registrations.filter fun registration => registration.id != id
  ordered := registry.ordered.sublist List.filter_sublist
  issued := fun registration member =>
    registry.issued registration (List.mem_filter.mp member).1

def holds (registry : Registry σ) (id : Nat) : Bool :=
  registry.registrations.any fun registration => registration.id == id

/-- The registrations for one kind of event, in the order in which they were made. -/
def observers (registry : Registry σ) (kind : EventKind) : List (Registration σ) :=
  registry.registrations.filter fun registration => registration.kind == kind

def count (registry : Registry σ) (kind : EventKind) : Nat := (registry.observers kind).length

/-! ### Who listens after a change -/

theorem holds_iff (registry : Registry σ) (id : Nat) :
    registry.holds id ↔ ∃ registration ∈ registry.registrations, registration.id = id := by
  unfold holds
  rw [List.any_eq_true]
  exact exists_congr fun registration => and_congr_right fun _ => beq_iff_eq

theorem observers_add (registry : Registry σ) (kind other : EventKind) (observer : Observer σ) :
    (registry.add kind observer).observers other =
      registry.observers other ++
        if kind = other then [registry.candidate kind observer] else [] := by
  unfold observers add
  rw [List.filter_append]
  by_cases same : kind = other
  · simp [same, candidate]
  · simp [same, candidate]

theorem observers_remove (registry : Registry σ) (kind : EventKind) (id : Nat) :
    (registry.remove id).observers kind =
      (registry.observers kind).filter fun registration => registration.id != id := by
  unfold observers remove
  rw [List.filter_filter, List.filter_filter]
  exact List.filter_congr fun registration _ => Bool.and_comm _ _

end Registry

end CobolAnalysis
