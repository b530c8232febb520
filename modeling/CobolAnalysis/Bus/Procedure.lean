/-
What an observer does with an event.

A procedure is a finite course of bus operations, each with what follows it. It
can look at and replace the state that all observers of a bus share, and it can
break off with a panic. An observer answers every event with a procedure; it is
told the number of its own registration, so that two registrations of one
observer can keep separate accounts. It holds no guard of the bus: a registration
stays until it is ended by its number.
-/

import CobolAnalysis.Bus.Event
import CobolAnalysis.Part

namespace CobolAnalysis

inductive Procedure (σ : Type) where
  | done
  | panic
  | publish (event : Event) (rest : Procedure σ)
  | subscribe (kind : EventKind) (observer : Nat → Event → Procedure σ)
      (next : Nat → Procedure σ)
  /-- What follows learns whether there was such a registration. -/
  | unsubscribe (id : Nat) (next : Bool → Procedure σ)
  | read (next : σ → Procedure σ)
  | write (state : σ) (rest : Procedure σ)

abbrev Observer (σ : Type) := Nat → Event → Procedure σ

namespace Procedure

variable {σ τ : Type}

instance : Inhabited (Procedure σ) := ⟨done⟩

/-- One course after the other. A panic in the first ends both. -/
def andThen (first second : Procedure σ) : Procedure σ :=
  match first with
  | done => second
  | panic => panic
  | publish event rest => publish event (rest.andThen second)
  | subscribe kind observer next => subscribe kind observer fun id => (next id).andThen second
  | unsubscribe id next => unsubscribe id fun present => (next present).andThen second
  | read next => read fun state => (next state).andThen second
  | write state rest => write state (rest.andThen second)

def publishAll (events : List Event) : Procedure σ :=
  match events with
  | [] => done
  | event :: rest => publish event (publishAll rest)

def modify (change : σ → σ) (rest : Procedure σ) : Procedure σ :=
  read fun state => write (change state) rest

/-- The same course over a larger state, of which it sees and changes one part only. -/
def within (part : Part τ σ) : Procedure σ → Procedure τ
  | done => done
  | panic => panic
  | publish event rest => publish event (rest.within part)
  | subscribe kind observer next =>
      subscribe kind (fun id event => (observer id event).within part)
        fun id => (next id).within part
  | unsubscribe id next => unsubscribe id fun present => (next present).within part
  | read next => read fun state => (next (part.get state)).within part
  | write state rest => modify (part.set state) (rest.within part)

end Procedure

def Observer.within {σ τ : Type} (observer : Observer σ) (part : Part τ σ) : Observer τ :=
  fun id event => (observer id event).within part

end CobolAnalysis
